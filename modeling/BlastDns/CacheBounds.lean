import BlastDns.Cache
import BlastDns.Politeness

/-!
When a cache insert panics. The two TTL bounds come from the configuration, which
checks neither against the other, and the deadline is an instant of the clock. A
lookup that has its answer is lost when either of them fails.
-/

namespace BlastDns.CacheBounds

open Lru Cache Worker Client Config Politeness

variable {Query : Type} [DecidableEq Query] {lru : LruCache Query CacheEntry}

theorem lifetime_fits_iff {minTtlNs maxTtlNs latest now : ℕ} {response : DnsResponse}
    (order : minTtlNs ≤ maxTtlNs) (some : response.answers ≠ []) :
    now + lifetime minTtlNs maxTtlNs response ≤ latest ↔
      now + minTtlNs ≤ latest ∧
        ((∃ record ∈ response.answers, now + record.ttl * 10 ^ 9 ≤ latest) ∨
          now + maxTtlNs ≤ latest) := by
  rcases ttl_secs_least some with ⟨⟨least, inside, same⟩, below⟩
  have attained : (∃ record ∈ response.answers, now + record.ttl * 10 ^ 9 ≤ latest) ↔
      now + ttlSecs response * 10 ^ 9 ≤ latest := by
    constructor
    · rintro ⟨record, member, fits⟩
      have shorter : ttlSecs response * 10 ^ 9 ≤ record.ttl * 10 ^ 9 :=
        Nat.mul_le_mul_right _ (below record member)
      exact le_trans (Nat.add_le_add_left shorter now) fits
    · intro fits
      rw [← same] at fits
      exact ⟨least, inside, fits⟩
  rw [attained, lifetime]
  generalize ttlSecs response * 10 ^ 9 = ttlNs
  omega

/-- Over the cache of any accepted configuration, whatever it holds, an insert
completes exactly when the response is not cacheable, or the bounds are the right
way round and the deadline is an instant. -/
theorem insert_completes_iff {host : Host} {texts : List String} {config : BlastDNSConfig}
    {client : BlastDNSClient} (accepted : withConfig host texts config = some (.ok client))
    {cache : SimpleCache lru} (built : newCache lru client.config = some cache) (inner : lru.Map)
    (latest : ℕ) (query : Query) (response : DnsResponse) (now : ℕ) :
    (({ cache with inner := inner } : SimpleCache lru).insert latest query response now).isSome ↔
      ¬ Cacheable response ∨
        config.cacheMinTtlNs ≤ config.cacheMaxTtlNs ∧ now + config.cacheMinTtlNs ≤ latest ∧
          ((∃ record ∈ response.answers, now + record.ttl * 10 ^ 9 ≤ latest) ∨
            now + config.cacheMaxTtlNs ≤ latest) := by
  rcases with_config_ok accepted with ⟨_, _, _, kept, _⟩
  have bounds : cache.minTtlNs = config.cacheMinTtlNs ∧ cache.maxTtlNs = config.cacheMaxTtlNs := by
    rw [newCache, kept] at built
    split at built
    · cases built
      exact ⟨rfl, rfl⟩
    · cases built
  rw [← bounds.1, ← bounds.2]
  rcases insert_cases latest ({ cache with inner := inner } : SimpleCache lru) query response now
    with ⟨uncacheable, done⟩ | ⟨cacheable, bad, done⟩ | ⟨cacheable, order, fits, done⟩
  · simp [done, uncacheable]
  · rw [done]
    constructor
    · intro impossible
      cases impossible
    · rintro (uncacheable | ⟨order, fits⟩)
      · exact absurd cacheable uncacheable
      · exact absurd ⟨order, (lifetime_fits_iff order cacheable.1).mpr fits⟩ bad
  · rw [done]
    constructor
    · intro _
      exact Or.inr ⟨order, (lifetime_fits_iff order cacheable.1).mp fits⟩
    · intro _
      rfl

theorem insert_completes_iff_default :
    ∃ client, withConfig plainHost ["1.1.1.1"] {} = some (.ok client) ∧
      ∃ cache : SimpleCache (listed : LruCache ℕ CacheEntry),
        newCache listed client.config = some cache ∧
        (cache.insert (10 ^ 18) 0 shortAnswer 0).isSome := by
  have accepted : withConfig plainHost ["1.1.1.1"] {} =
      some (.ok (plainClient {} [sameAddress])) :=
    plain_client_accepted rfl bare_texts rfl rfl
  refine ⟨_, accepted, _, rfl, ?_⟩
  apply (insert_completes_iff accepted rfl _ (10 ^ 18) 0 shortAnswer 0).mpr
  right
  refine ⟨by decide, by decide, Or.inr (by decide)⟩

def crossedWire : BlastDNSConfigWire where
  maxInflightPerResolver := 2
  maxConcurrency := 256
  rateLimit := none
  adaptive := true
  resolverProbe := false
  persistentSocket := false
  requestTimeoutMs := 1000
  maxRetries := 10
  purgatoryThreshold := 10
  purgatorySentenceMs := 1000
  cacheCapacity := 10000
  cacheMinTtlSecs := 20
  cacheMaxTtlSecs := 10

/-- The configuration is accepted, and the first positive answer panics at any time. -/
theorem insert_panics_crossed :
    ∃ client, withConfig plainHost ["1.1.1.1"] (.ofWire crossedWire) = some (.ok client) ∧
      ∃ cache : SimpleCache (listed : LruCache ℕ CacheEntry),
        newCache listed client.config = some cache ∧
        ∀ latest now, cache.insert latest 0 shortAnswer now = none := by
  have accepted : withConfig plainHost ["1.1.1.1"] (.ofWire crossedWire) =
      some (.ok (plainClient (.ofWire crossedWire) [sameAddress])) :=
    plain_client_accepted rfl bare_texts rfl rfl
  refine ⟨_, accepted, _, rfl, ?_⟩
  intro latest now
  rfl

end BlastDns.CacheBounds
