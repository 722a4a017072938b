import BlastDns.Client
import BlastDns.Lru

/-!
`SimpleCache` of `src/cache.rs` over any map that forgets what was used least
recently. Instants and durations are nanoseconds, and `latest` is the last instant
the clock can express. `none` is a panic: of `clamp` with its bounds the wrong way
round, or of an instant past `latest`. Both happen before the lock is taken, so
the lock is never poisoned and always granted.
-/

namespace BlastDns.Cache

open Lru Worker Config

structure CacheEntry where
  response : DnsResponse
  expireAt : ℕ
  deriving DecidableEq

variable {Query : Type} [DecidableEq Query]

structure SimpleCache (lru : LruCache Query CacheEntry) where
  inner : lru.Map
  minTtlNs : ℕ
  maxTtlNs : ℕ

/-- The smallest TTL among the answers, in seconds; without an answer, zero. -/
def ttlSecs (response : DnsResponse) : ℕ := (response.answers.map Record.ttl).min?.getD 0

/-- `Ord::clamp` asserts its bounds. -/
def clamp (value low high : ℕ) : Option ℕ :=
  if low ≤ high then some (if value < low then low else if high < value then high else value)
  else none

/-- `Instant + Duration` -/
def addDuration (latest now duration : ℕ) : Option ℕ :=
  if now + duration ≤ latest then some (now + duration) else none

namespace SimpleCache

variable {lru : LruCache Query CacheEntry}

def new (lru : LruCache Query CacheEntry) (capacity minTtlNs maxTtlNs : ℕ) : SimpleCache lru where
  inner := lru.new (max capacity 1)
  minTtlNs := minTtlNs
  maxTtlNs := maxTtlNs

def get (cache : SimpleCache lru) (query : Query) (now : ℕ) :
    Option DnsResponse × SimpleCache lru :=
  let (found, inner) := lru.get cache.inner query
  match found with
  | some entry =>
      if now < entry.expireAt then (some entry.response, { cache with inner := inner })
      else (none, { cache with inner := lru.pop inner query })
  | none => (none, { cache with inner := inner })

def contains (cache : SimpleCache lru) (query : Query) (now : ℕ) : Bool × SimpleCache lru :=
  let (found, inner) := lru.get cache.inner query
  match found with
  | some entry =>
      if now < entry.expireAt then (true, { cache with inner := inner })
      else (false, { cache with inner := lru.pop inner query })
  | none => (false, { cache with inner := inner })

def insert (latest : ℕ) (cache : SimpleCache lru) (query : Query) (response : DnsResponse)
    (now : ℕ) : Option (SimpleCache lru) :=
  if ttlSecs response = 0 then some cache
  else do
    let ttl ← clamp (ttlSecs response * 10 ^ 9) cache.minTtlNs cache.maxTtlNs
    let expireAt ← addDuration latest now ttl
    return { cache with inner := lru.put cache.inner query { response, expireAt } }

end SimpleCache

def newCache (lru : LruCache Query CacheEntry) (config : BlastDNSConfig) :
    Option (SimpleCache lru) :=
  if 0 < config.cacheCapacity then
    some (SimpleCache.new lru config.cacheCapacity config.cacheMinTtlNs config.cacheMaxTtlNs)
  else none

def Cacheable (response : DnsResponse) : Prop :=
  response.answers ≠ [] ∧ ∀ record ∈ response.answers, record.ttl ≠ 0

def lifetime (minTtlNs maxTtlNs : ℕ) (response : DnsResponse) : ℕ :=
  max minTtlNs (min (ttlSecs response * 10 ^ 9) maxTtlNs)

def shortAnswer : DnsResponse where
  responseCode := 0
  truncated := false
  answers := [{ ttl := 300, rdata := "192.0.2.1" }]

theorem ttl_secs_least {response : DnsResponse} (some : response.answers ≠ []) :
    (∃ record ∈ response.answers, record.ttl = ttlSecs response) ∧
      ∀ record ∈ response.answers, ttlSecs response ≤ record.ttl := by
  have least : (response.answers.map Record.ttl).min? = Option.some (ttlSecs response) := by
    rw [ttlSecs]
    cases found : (response.answers.map Record.ttl).min? with
    | none => simp [List.min?_eq_none_iff, some] at found
    | some ttl => rfl
  rcases List.min?_eq_some_iff.mp least with ⟨member, below⟩
  rcases List.mem_map.mp member with ⟨record, inside, same⟩
  exact ⟨⟨record, inside, same⟩, fun record inside => below _ (List.mem_map_of_mem inside)⟩

theorem ttl_secs_zero_iff (response : DnsResponse) : ttlSecs response = 0 ↔ ¬ Cacheable response := by
  by_cases empty : response.answers = []
  · simp [ttlSecs, Cacheable, empty]
  · rcases ttl_secs_least empty with ⟨⟨record, inside, same⟩, least⟩
    constructor
    · intro zero cacheable
      exact cacheable.2 record inside (same.trans zero)
    · intro uncacheable
      by_contra positive
      apply uncacheable
      refine ⟨empty, ?_⟩
      intro other member zero
      have below := least other member
      omega

theorem clamp_some {value low high : ℕ} (order : low ≤ high) :
    clamp value low high = some (max low (min value high)) := by
  rw [clamp, if_pos order]
  congr 1
  split
  · omega
  · split <;> omega

section Effects

variable {lru : LruCache Query CacheEntry}

def live (cache : SimpleCache lru) (query : Query) (now : ℕ) : Option CacheEntry :=
  ((lru.recency cache.inner).lookup query).filter fun entry => now < entry.expireAt

theorem live_some {cache : SimpleCache lru} {query : Query} {now : ℕ} {entry : CacheEntry} :
    live cache query now = some entry ↔
      (lru.recency cache.inner).lookup query = some entry ∧ now < entry.expireAt := by
  simp [live]

structure LookedUp (cache after : SimpleCache lru) (query : Query) (now : ℕ) : Prop where
  minTtl : after.minTtlNs = cache.minTtlNs
  maxTtl : after.maxTtlNs = cache.maxTtlNs
  capacity : lru.capacity after.inner = lru.capacity cache.inner
  recency : lru.recency after.inner =
    match live cache query now with
    | some entry => (lru.recency cache.inner).insert query entry
    | none => (lru.recency cache.inner).erase query

theorem get_effect (cache : SimpleCache lru) (query : Query) (now : ℕ) :
    (cache.get query now).1 = (live cache query now).map CacheEntry.response ∧
      LookedUp cache (cache.get query now).2 query now := by
  have found := lru.get_found cache.inner query
  have order := lru.recency_get cache.inner query
  have room := lru.capacity_get cache.inner query
  rw [SimpleCache.get]
  generalize lru.get cache.inner query = looked at found order room
  rcases looked with ⟨value, inner⟩
  dsimp only at found order room ⊢
  subst found
  cases found : (lru.recency cache.inner).lookup query with
  | none =>
      have missed : live cache query now = none := by rw [live, found]; rfl
      dsimp only
      rw [missed]
      refine ⟨rfl, rfl, rfl, room, ?_⟩
      rw [missed]
      exact order.trans (Recency.promote_absent found)
  | some entry =>
      have promoted : Recency.promote (lru.recency cache.inner) query =
          (lru.recency cache.inner).insert query entry := by rw [Recency.promote, found]
      dsimp only
      by_cases fresh : now < entry.expireAt
      · have hit : live cache query now = some entry := by simp [live, found, fresh]
        rw [if_pos fresh, hit]
        refine ⟨rfl, rfl, rfl, room, ?_⟩
        rw [hit]
        exact order.trans promoted
      · have missed : live cache query now = none := by simp [live, found, not_lt.mp fresh]
        rw [if_neg fresh, missed]
        refine ⟨rfl, rfl, rfl, (lru.capacity_pop _ _).trans room, ?_⟩
        rw [missed]
        dsimp only
        rw [lru.recency_pop, order, Recency.erase_promote]

theorem looked_up_found {cache after : SimpleCache lru} {query other : Query} {now : ℕ}
    {entry : CacheEntry} (looked : LookedUp cache after query now)
    (found : (lru.recency after.inner).lookup other = some entry) :
    (lru.recency cache.inner).lookup other = some entry := by
  rw [looked.recency] at found
  cases hit : live cache query now with
  | none =>
      rw [hit] at found
      exact Recency.lookup_erased found
  | some value =>
      rw [hit] at found
      rwa [Recency.lookup_reinsert (live_some.mp hit).1] at found

/-- `contains` answers whether `get` would find something, and leaves the same cache. -/
theorem contains_get (cache : SimpleCache lru) (query : Query) (now : ℕ) :
    cache.contains query now = ((cache.get query now).1.isSome, (cache.get query now).2) := by
  rw [SimpleCache.contains, SimpleCache.get]
  generalize lru.get cache.inner query = looked
  rcases looked with ⟨_ | entry, inner⟩
  · rfl
  · dsimp only
    split <;> rfl

/-- What an insert does: nothing, a panic, or a new entry at the front. -/
theorem insert_cases (latest : ℕ) (cache : SimpleCache lru) (query : Query)
    (response : DnsResponse) (now : ℕ) :
    (¬ Cacheable response ∧ cache.insert latest query response now = some cache) ∨
    (Cacheable response ∧
      ¬ (cache.minTtlNs ≤ cache.maxTtlNs ∧
        now + lifetime cache.minTtlNs cache.maxTtlNs response ≤ latest) ∧
      cache.insert latest query response now = none) ∨
    (Cacheable response ∧ cache.minTtlNs ≤ cache.maxTtlNs ∧
      now + lifetime cache.minTtlNs cache.maxTtlNs response ≤ latest ∧
      cache.insert latest query response now = some { cache with
        inner := lru.put cache.inner query {
          response := response
          expireAt := now + lifetime cache.minTtlNs cache.maxTtlNs response } }) := by
  rw [SimpleCache.insert]
  by_cases cacheable : Cacheable response
  · right
    have nonzero : ttlSecs response ≠ 0 := fun zero => (ttl_secs_zero_iff response).mp zero cacheable
    rw [if_neg nonzero]
    by_cases order : cache.minTtlNs ≤ cache.maxTtlNs
    · rw [clamp_some order, Option.bind_eq_bind, Option.bind_some]
      by_cases fits : now + lifetime cache.minTtlNs cache.maxTtlNs response ≤ latest
      · right
        refine ⟨cacheable, order, fits, ?_⟩
        have added : addDuration latest now (lifetime cache.minTtlNs cache.maxTtlNs response) =
            some (now + lifetime cache.minTtlNs cache.maxTtlNs response) := if_pos fits
        rw [lifetime] at added ⊢
        rw [added]
        rfl
      · left
        refine ⟨cacheable, fun both => fits both.2, ?_⟩
        have exceeds : addDuration latest now (lifetime cache.minTtlNs cache.maxTtlNs response) =
            none := if_neg fits
        rw [lifetime] at exceeds
        rw [exceeds]
        rfl
    · left
      refine ⟨cacheable, fun both => order both.1, ?_⟩
      rw [clamp, if_neg order]
      rfl
  · left
    exact ⟨cacheable, if_pos ((ttl_secs_zero_iff response).mpr cacheable)⟩

end Effects

end BlastDns.Cache
