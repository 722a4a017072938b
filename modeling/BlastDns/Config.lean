import BlastDns.Health

/-!
`BlastDNSConfig` of `src/config.rs`, its defaults, the shape that crosses the
Python boundary, and the pool that `ResolverPool::new` builds from it.
Durations are nanoseconds.
-/

namespace BlastDns.Config

open Limiter Health NetText

structure BlastDNSConfig where
  maxInflightPerResolver : ℕ := 2
  maxConcurrency : ℕ := 256
  rateLimit : Option ℚ := none
  adaptive : Bool := true
  resolverProbe : Bool := false
  persistentSocket : Bool := false
  requestTimeoutNs : ℕ := 1000 * 10 ^ 6
  maxRetries : ℕ := 10
  purgatoryThreshold : ℕ := 10
  purgatorySentenceNs : ℕ := 1000 * 10 ^ 6
  cacheCapacity : ℕ := 10000
  cacheMinTtlNs : ℕ := 10 * 10 ^ 9
  cacheMaxTtlNs : ℕ := 86400 * 10 ^ 9

structure BlastDNSConfigWire where
  maxInflightPerResolver : ℕ
  maxConcurrency : ℕ
  rateLimit : Option ℚ
  adaptive : Bool
  resolverProbe : Bool
  persistentSocket : Bool
  requestTimeoutMs : ℕ
  maxRetries : ℕ
  purgatoryThreshold : ℕ
  purgatorySentenceMs : ℕ
  cacheCapacity : ℕ
  cacheMinTtlSecs : ℕ
  cacheMaxTtlSecs : ℕ

/-- `From<BlastDNSConfigWire>` -/
def BlastDNSConfig.ofWire (wire : BlastDNSConfigWire) : BlastDNSConfig where
  maxInflightPerResolver := max wire.maxInflightPerResolver 1
  maxConcurrency := max wire.maxConcurrency 1
  rateLimit := wire.rateLimit.filter fun rate => 0 < rate
  adaptive := wire.adaptive
  resolverProbe := wire.resolverProbe
  persistentSocket := wire.persistentSocket
  requestTimeoutNs := max wire.requestTimeoutMs 1 * 10 ^ 6
  maxRetries := wire.maxRetries
  purgatoryThreshold := wire.purgatoryThreshold
  purgatorySentenceNs := max wire.purgatorySentenceMs 1 * 10 ^ 6
  cacheCapacity := wire.cacheCapacity
  cacheMinTtlNs := wire.cacheMinTtlSecs * 10 ^ 9
  cacheMaxTtlNs := wire.cacheMaxTtlSecs * 10 ^ 9

def BlastDNSConfig.inflightPermits (config : BlastDNSConfig) : ℕ :=
  max config.maxInflightPerResolver 1

/-- `ResolverHealth::new`; every limiter starts unlimited, one nanosecond apart. -/
def newHealth (resolver : SocketAddr) (config : BlastDNSConfig) : ResolverHealth where
  resolver := resolver
  requestTimeoutNs := config.requestTimeoutNs
  purgatoryThreshold := config.purgatoryThreshold
  purgatorySentenceNs := config.purgatorySentenceNs
  inflight := config.inflightPermits
  limiter := ⟨pacingInterval unlimitedQps⟩

/-- `ResolverPool::new`: one entry for each address of the list. -/
def newPool (resolvers : List SocketAddr) (config : BlastDNSConfig) (i : Fin resolvers.length) :
    ResolverHealth :=
  newHealth (resolvers.get i) config

end BlastDns.Config
