import BlastDns.Cache
import BlastDns.Controller
import BlastDns.NetReads

/-!
`BlastDNSClient::resolve_full` of `src/client.rs`: the cache lookup, the retry loop
and what each of its exits does to the counters and the cache. What comes of an
attempt, and when, is up to the environment: the n-th attempt a call makes finds
the n-th outcome of a stream. `parse` stands for hickory's reading of a host name.
`none` is the panic of a cache insert.
-/

namespace BlastDns.Resolve

open Lru Cache Worker Controller NetText

def usizeMax : ℕ := 2 ^ 64 - 1

/-- Type codes and response codes as they are on the wire. -/
def ptrType : ℕ := 12
def noError : ℕ := 0
def nxDomain : ℕ := 3

def nibbles (segment : Segment) : List ℕ :=
  [segment.val / 4096 % 16, segment.val / 256 % 16, segment.val / 16 % 16, segment.val % 16]

/-- `format_ptr_query` of `src/utils.rs` -/
def formatPtrQuery (host : String) : String :=
  match IpAddr.fromStr host.toList with
  | some (.v4 ip) =>
      String.ofList (Ipv4Addr.display ⟨ip.d, ip.c, ip.b, ip.a⟩ ++ ".in-addr.arpa".toList)
  | some (.v6 ip) =>
      let reversed := (ip.segments.flatMap nibbles).reverse.map hex
      String.ofList (['.'].intercalate reversed ++ ".ip6.arpa".toList)
  | none => host

/-- The text of an IPv4 address becomes its octets in reverse. -/
theorem format_ptr_query_quad (ip : Ipv4Addr) :
    formatPtrQuery (String.ofList ip.display) =
      String.ofList (Ipv4Addr.display ⟨ip.d, ip.c, ip.b, ip.a⟩ ++ ".in-addr.arpa".toList) := by
  have quad := read_ipv4_displayed ip [] (by simp)
  rw [List.append_nil] at quad
  have read : IpAddr.fromStr ip.display = some (.v4 ip) := by
    simp [IpAddr.fromStr, parseWith, readIpAddr, quad]
  rw [formatPtrQuery, String.toList_ofList, read]

example : formatPtrQuery "192.168.1.1" = "1.1.168.192.in-addr.arpa" := by decide

/-- Whether a response settles whether the name exists. -/
def answersTheQuestion (response : DnsResponse) : Bool :=
  response.responseCode = noError || response.responseCode = nxDomain

/-- What comes of offering a work item: the queue is closed, the item is dropped with
its channel, or a worker answers. -/
inductive Attempt where
  | closed
  | dropped
  | answered (result : Answer)

def Attempt.outcome : Attempt → Answer
  | closed => .error .queueClosed
  | dropped => .error .workerDropped
  | answered result => result

/-- A call, with the instants it reads: before the loop, and at the end of each
attempt. -/
structure Call where
  host : String
  recordType : ℕ
  askedAt : ℕ
  attempts : ℕ → Attempt
  settledAt : ℕ → ℕ

section Client

variable {Name : Type} [DecidableEq Name]

/-- The cache and the counters of a client, and what it has offered to its queue. -/
structure ClientState (lru : LruCache (Name × ℕ) CacheEntry) where
  cache : Option (SimpleCache lru)
  outcomes : Outcomes := {}
  offered : List QuerySpec := []

variable {lru : LruCache (Name × ℕ) CacheEntry} (parse : String → Option Name) (latest : ℕ)

namespace ClientState

def lookup (state : ClientState lru) (query : QuerySpec) (now : ℕ) :
    Option DnsResponse × ClientState lru :=
  match state.cache, parse query.host with
  | some cache, some name =>
      let (hit, cache) := cache.get (name, query.recordType) now
      (hit, { state with cache := some cache })
  | _, _ => (none, state)

def store (state : ClientState lru) (query : QuerySpec) (response : DnsResponse) (now : ℕ) :
    Option (ClientState lru) :=
  match state.cache, response.answers, parse query.host with
  | some cache, _ :: _, some name =>
      (cache.insert latest (name, query.recordType) response now).map fun cache =>
        { state with cache := some cache }
  | _, _, _ => some state

def completed (state : ClientState lru) : ClientState lru :=
  { state with outcomes := { state.outcomes with completed := state.outcomes.completed + 1 } }

def failed (state : ClientState lru) : ClientState lru :=
  { state with outcomes := { state.outcomes with failed := state.outcomes.failed + 1 } }

def offer (state : ClientState lru) (query : QuerySpec) : ClientState lru :=
  { state with offered := state.offered ++ [query] }

end ClientState

/-- The loop with `remaining` of its attempts to go. It returns, or runs out. -/
def resolveLoop (query : QuerySpec) (call : Call) (attempts : ℕ) :
    (remaining : ℕ) → ClientState lru → Option (Option Answer × ClientState lru)
  | 0, state => some (none, state)
  | remaining + 1, state =>
      let attempt := attempts - (remaining + 1)
      let state := state.offer query
      match call.attempts attempt with
      | .closed => some (some (.error .queueClosed), state)
      | sent =>
          match sent.outcome with
          | .ok response =>
              -- this resolver declined: ask another while there are attempts left
              if !answersTheQuestion response && attempt + 1 < attempts then
                resolveLoop query call attempts remaining state
              else do
                let state ← state.store parse latest query response (call.settledAt attempt)
                return (some (.ok response), state.completed)
          | .error err =>
              if attempt + 1 = attempts || !err.isRetryable then
                some (some (.error err),
                  if err.isCongestionEvidence then state.completed.failed else state)
              else resolveLoop query call attempts remaining state

/-- The query a call makes: a PTR query may be given as an address. -/
def Call.query (call : Call) : QuerySpec where
  host := if call.recordType = ptrType then formatPtrQuery call.host else call.host
  recordType := call.recordType

/-- `max_retries.saturating_add(1)` -/
def attemptsFor (maxRetries : ℕ) : ℕ := min (maxRetries + 1) usizeMax

def resolveFull (maxRetries : ℕ) (state : ClientState lru) (call : Call) :
    Option (Answer × ClientState lru) :=
  match state.lookup parse call.query call.askedAt with
  | (some response, state) => some (.ok response, state)
  | (none, state) => do
      let attempts := attemptsFor maxRetries
      let (returned, state) ← resolveLoop parse latest call.query call attempts attempts state
      -- the fallback after the loop
      return (returned.getD (.error .workerDropped), state)

end Client

end BlastDns.Resolve
