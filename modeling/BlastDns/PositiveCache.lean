import BlastDns.RetryLoop

/-!
Which responses a client keeps. The guard before the insert looks at the answers
of a response and not at its code, so what is kept depends on which codes end a
call: NXDOMAIN at any attempt, and any code at all at the last one. Both may come
with answers, such as the CNAME records that lead to a name that does not exist.
-/

namespace BlastDns.PositiveCache

open Lru Cache Worker Resolve RetryLoop Config

section Runs

variable {Name : Type} [DecidableEq Name] {lru : LruCache (Name × ℕ) CacheEntry}
variable (parse : String → Option Name) (latest maxRetries : ℕ)

/-- What a call makes of its client. A panic of the insert ends the call and leaves
the cache as the lookup left it. -/
inductive Called (state : ClientState lru) (call : Call) : ClientState lru → Prop
  | returned {answer : Answer} {after : ClientState lru}
      (resolved : resolveFull parse latest maxRetries state call = some (answer, after)) :
      Called state call after
  | panicked {after : ClientState lru}
      (lost : resolveFull parse latest maxRetries state call = none)
      (kept : after.cache = (state.lookup parse call.query call.askedAt).2.cache) :
      Called state call after

structure ClientRun (config : BlastDNSConfig) (calls : ℕ → Call)
    (states : ℕ → ClientState lru) : Prop where
  fresh : states 0 = { cache := newCache lru config }
  steps : ∀ time, Called parse latest config.maxRetries (states time) (calls time)
    (states (time + 1))

def Positive (state : ClientState lru) : Prop :=
  ∀ cache, state.cache = some cache → ∀ query entry,
    (lru.recency cache.inner).lookup query = some entry →
      entry.response.responseCode = noError ∧ entry.response.answers ≠ []

/-- The call misses the cache and ends with a response that can be kept. -/
structure Writes (state : ClientState lru) (call : Call) (cache : SimpleCache lru) (name : Name)
    (stop : ℕ) (response : DnsResponse) : Prop where
  held : state.cache = some cache
  named : parse call.query.host = some name
  missed : live cache (name, call.query.recordType) call.askedAt = none
  stops : StopsAt call (attemptsFor maxRetries) stop
  accepted : (call.attempts stop).outcome = .ok response
  cacheable : Cacheable response
  order : cache.minTtlNs ≤ cache.maxTtlNs
  fits : call.settledAt stop + lifetime cache.minTtlNs cache.maxTtlNs response ≤ latest

def WritesNegative (state : ClientState lru) (call : Call) : Prop :=
  ∃ cache name stop response,
    Writes parse latest maxRetries state call cache name stop response ∧
      response.responseCode ≠ noError

variable {parse latest maxRetries} {state after : ClientState lru} {call : Call}

theorem called_exists (state : ClientState lru) (call : Call) :
    ∃ after, Called parse latest maxRetries state call after := by
  cases resolved : resolveFull parse latest maxRetries state call with
  | none => exact ⟨_, .panicked resolved rfl⟩
  | some result => exact ⟨result.2, .returned resolved⟩

theorem client_run_exists (config : BlastDNSConfig) (calls : ℕ → Call) :
    ∃ states : ℕ → ClientState lru, ClientRun parse latest config calls states := by
  choose next called using @called_exists Name _ lru parse latest config.maxRetries
  let states : ℕ → ClientState lru :=
    Nat.rec { cache := newCache lru config } fun time state => next state (calls time)
  exact ⟨states, rfl, fun time => called (states time) (calls time)⟩

theorem writes_unanswered {cache : SimpleCache lru} {name : Name} {stop : ℕ}
    {response : DnsResponse}
    (writes : Writes parse latest maxRetries state call cache name stop response) :
    Unanswered parse state call := by
  rintro other label held named
  cases writes.held.symm.trans held
  cases writes.named.symm.trans named
  exact writes.missed

theorem looked_up_cache {cache : SimpleCache lru} {name : Name} {query : QuerySpec} {now : ℕ}
    (held : state.cache = some cache) (named : parse query.host = some name) :
    (state.lookup parse query now).2.cache =
      some (cache.get (name, query.recordType) now).2 := by
  rw [ClientState.lookup, held, named]

/-- A call that keeps a response puts it at the front of what its lookup left. -/
theorem writes_called {cache : SimpleCache lru} {name : Name} {stop : ℕ} {response : DnsResponse}
    (writes : Writes parse latest maxRetries state call cache name stop response)
    (called : Called parse latest maxRetries state call after) :
    ∃ looked kept entry, LookedUp cache looked (name, call.query.recordType) call.askedAt ∧
      after.cache = some kept ∧ lru.capacity kept.inner = lru.capacity cache.inner ∧
      entry.response = response ∧
      lru.recency kept.inner = Recency.truncate ((lru.recency looked.inner).insert
        (name, call.query.recordType) entry) (lru.capacity cache.inner) := by
  have looked := (get_effect cache (name, call.query.recordType) call.askedAt).2
  have left : (offers (state.lookup parse call.query call.askedAt).2 call.query (stop + 1)).cache =
      some (cache.get (name, call.query.recordType) call.askedAt).2 :=
    looked_up_cache writes.held writes.named
  have resolved := resolve_full_missed parse latest (writes_unanswered writes) writes.stops
  rw [writes.accepted, settle] at resolved
  generalize offers (state.lookup parse call.query call.askedAt).2 call.query (stop + 1) = offered
    at left resolved
  generalize (cache.get (name, call.query.recordType) call.askedAt).2 = found at looked left
  rcases store_cases parse latest offered call.query response (call.settledAt stop) with
    ⟨_, empty | nothing⟩ | ⟨other, label, held, named, stored⟩
  · exact absurd empty writes.cacheable.1
  · exact absurd writes.named (nothing found name left)
  · cases left.symm.trans held
    cases writes.named.symm.trans named
    have inserted := insert_cases latest found (name, call.query.recordType) response
      (call.settledAt stop)
    rw [looked.minTtl, looked.maxTtl] at inserted
    rcases inserted with ⟨uncacheable, _⟩ | ⟨_, bad, _⟩ | ⟨_, _, _, done⟩
    · exact absurd writes.cacheable uncacheable
    · exact absurd ⟨writes.order, writes.fits⟩ bad
    · rw [stored, done] at resolved
      cases called with
      | panicked lost _ => cases resolved.symm.trans lost
      | returned returned =>
          cases resolved.symm.trans returned
          refine ⟨found, _, ⟨response, call.settledAt stop +
            lifetime cache.minTtlNs cache.maxTtlNs response⟩, looked, rfl, ?_, rfl, ?_⟩
          · exact (lru.capacity_put _ _ _).trans looked.capacity
          · rw [← looked.capacity]
            exact lru.recency_put _ _ _

theorem unwritten_called
    (unwritten : ∀ cache name stop response,
      ¬ Writes parse latest maxRetries state call cache name stop response)
    (called : Called parse latest maxRetries state call after) :
    after.cache = (state.lookup parse call.query call.askedAt).2.cache := by
  cases called with
  | panicked _ kept => exact kept
  | returned resolved =>
      by_cases unanswered : Unanswered parse state call
      · rcases stops_exists call (attempts_for_pos maxRetries) with ⟨stop, stops⟩
        rw [resolve_full_missed parse latest unanswered stops] at resolved
        rcases Option.map_eq_some_iff.mp resolved with ⟨settled, exits, same⟩
        cases same
        cases outcome : (call.attempts stop).outcome with
        | error err =>
            rw [outcome, settle] at exits
            cases exits
            split <;> rfl
        | ok response =>
            rw [outcome, settle] at exits
            rcases Option.map_eq_some_iff.mp exits with ⟨stored, kept, rfl⟩
            rcases store_effect parse latest kept with
              same | ⟨found, name, held, named, cacheable, order, fits⟩
            · exact same
            · rcases looked_up_settings parse held with ⟨cache, before, minTtl, maxTtl, _⟩
              rw [minTtl, maxTtl] at fits
              rw [minTtl, maxTtl] at order
              exact absurd ⟨before, named, unanswered cache name before named, stops, outcome,
                cacheable, order, fits⟩ (unwritten cache name stop response)
      · rcases resolve_full_hit parse latest unanswered with ⟨response, hit⟩
        rw [hit] at resolved
        cases resolved
        rfl

theorem called_cases (called : Called parse latest maxRetries state call after) :
    (∃ cache name stop response,
      Writes parse latest maxRetries state call cache name stop response) ∨
    after.cache = (state.lookup parse call.query call.askedAt).2.cache := by
  by_cases written : ∃ cache name stop response,
      Writes parse latest maxRetries state call cache name stop response
  · exact Or.inl written
  · push Not at written
    exact Or.inr (unwritten_called written called)

def Roomy (state : ClientState lru) : Prop :=
  ∀ cache, state.cache = some cache → 0 < lru.capacity cache.inner

theorem roomy_called (roomy : Roomy state)
    (called : Called parse latest maxRetries state call after) : Roomy after := by
  rintro kept held
  rcases called_cases called with ⟨cache, name, stop, response, writes⟩ | unwritten
  · rcases writes_called writes called with ⟨_, same, _, _, left, room, _⟩
    cases left.symm.trans held
    rw [room]
    exact roomy cache writes.held
  · rw [unwritten] at held
    rcases looked_up_settings parse held with ⟨cache, before, _, _, room⟩
    rw [room]
    exact roomy cache before

theorem positive_called (positive : Positive state)
    (harmless : ¬ WritesNegative parse latest maxRetries state call)
    (called : Called parse latest maxRetries state call after) : Positive after := by
  rintro kept held query entry found
  rcases called_cases called with ⟨cache, name, stop, response, writes⟩ | unwritten
  · rcases writes_called writes called with ⟨looked, same, value, lookup, left, _, rfl, order⟩
    cases left.symm.trans held
    rw [order] at found
    have inserted := Recency.lookup_truncate found
    by_cases own : query = (name, call.query.recordType)
    · subst own
      rw [AList.lookup_insert] at inserted
      cases inserted
      constructor
      · by_contra negative
        exact harmless ⟨cache, name, stop, _, writes, negative⟩
      · exact writes.cacheable.1
    · rw [AList.lookup_insert_ne own] at inserted
      exact positive cache writes.held query entry (looked_up_found lookup inserted)
  · rw [unwritten] at held
    rcases lookup_cache parse held with ⟨cache, before, same | ⟨_, _, lookup⟩⟩
    · subst same
      exact positive kept before query entry found
    · exact positive cache before query entry (looked_up_found lookup found)

theorem negative_called (roomy : Roomy state)
    (harmful : WritesNegative parse latest maxRetries state call)
    (called : Called parse latest maxRetries state call after) : ¬ Positive after := by
  rintro positive
  rcases harmful with ⟨cache, name, stop, response, writes, negative⟩
  rcases writes_called writes called with ⟨looked, kept, entry, _, left, _, rfl, order⟩
  have room := roomy cache writes.held
  have front : Recency.Behind (name, call.query.recordType) entry ∅ (lru.recency kept.inner) := by
    rw [order]
    exact Recency.behind_truncate Recency.behind_insert room
  have found := Recency.behind_lookup front
  exact negative (positive kept left _ entry found).1

variable {config : BlastDNSConfig} {calls : ℕ → Call} {states : ℕ → ClientState lru}

theorem fresh_cache {cache : SimpleCache lru} (held : newCache lru config = some cache) :
    cache.inner = lru.new (max config.cacheCapacity 1) := by
  rw [newCache] at held
  split at held
  · cases held
    rfl
  · cases held

theorem run_roomy (run : ClientRun parse latest config calls states) (time : ℕ) :
    Roomy (states time) := by
  induction time with
  | zero =>
      rintro cache held
      rw [run.fresh] at held
      rw [fresh_cache held, lru.capacity_new]
      exact Nat.le_max_right _ _
  | succ time ih => exact roomy_called ih (run.steps time)

/-- A client holds nothing but positive answers throughout its run exactly when no call
of the run keeps a response whose code is not NOERROR. -/
theorem only_positive_cached_iff (run : ClientRun parse latest config calls states) :
    (∀ time, Positive (states time)) ↔
      ∀ time, ¬ WritesNegative parse latest config.maxRetries (states time) (calls time) := by
  constructor
  · rintro positive time harmful
    exact negative_called (run_roomy run time) harmful (run.steps time) (positive (time + 1))
  · rintro harmless time
    induction time with
    | zero =>
        rintro cache held query entry found
        rw [run.fresh] at held
        rw [fresh_cache held, lru.recency_new, AList.lookup_empty] at found
        cases found
    | succ time ih => exact positive_called ih (harmless time) (run.steps time)

end Runs

theorem labels_run_exists (calls : ℕ → Call) :
    ∃ states : ℕ → ClientState (listed : LruCache (List String × ℕ) CacheEntry),
      ClientRun labels (10 ^ 18) {} calls states :=
  client_run_exists {} calls

theorem only_positive_cached_iff_declined :
    ∃ states : ℕ → ClientState (listed : LruCache (List String × ℕ) CacheEntry),
      ClientRun labels (10 ^ 18) {} (fun _ => declinedOnce) states ∧
        ∀ time, Positive (states time) := by
  rcases labels_run_exists (fun _ => declinedOnce) with ⟨states, run⟩
  refine ⟨states, run, (only_positive_cached_iff run).mpr ?_⟩
  rintro time ⟨cache, name, stop, response, writes, negative⟩
  cases stops_unique writes.stops (declined_once_stops (by decide))
  cases writes.accepted
  exact negative rfl

/-- NXDOMAIN, with the CNAME that leads to the missing name. -/
def danglingAlias : DnsResponse where
  responseCode := nxDomain
  truncated := false
  answers := [{ ttl := 300, rdata := "missing.example.com." }]

def aliasedCall : Call where
  host := "www.example.com"
  recordType := 1
  askedAt := 0
  attempts _ := .answered (.ok danglingAlias)
  settledAt attempt := attempt + 1

/-- The first attempt is conclusive, and its response is kept. -/
theorem nxdomain_cached :
    ∃ states : ℕ → ClientState (listed : LruCache (List String × ℕ) CacheEntry),
      ClientRun labels (10 ^ 18) {} (fun _ => aliasedCall) states ∧
        ¬ ∀ time, Positive (states time) := by
  rcases labels_run_exists (fun _ => aliasedCall) with ⟨states, run⟩
  refine ⟨states, run, ?_⟩
  rintro positive
  have harmful : WritesNegative labels (10 ^ 18) 10 (states 0) aliasedCall := by
    rw [run.fresh]
    refine ⟨.new listed 10000 10000000000 86400000000000, "www.example.com".splitOn ".", 0,
      danglingAlias, ?_, by decide⟩
    constructor
    · rfl
    · rfl
    · rfl
    · exact ⟨attempts_for_pos 10, fun attempt before => by omega, Or.inl rfl⟩
    · rfl
    · exact ⟨by decide, by decide⟩
    · decide
    · decide
  exact negative_called (run_roomy run 0) harmful (run.steps 0) (positive 1)

end BlastDns.PositiveCache
