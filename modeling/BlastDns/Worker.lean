import BlastDns.Config
import BlastDns.Crew
import BlastDns.Error
import Mathlib.Data.Fin.Basic

/-!
`ResolverWorker::run` of `src/worker.rs` together with `ResolverPool::reserve`
of `src/health.rs`, one atomic access or one await to a step. A worker is where
its loop stands; the pool, the queue and the responders are shared. What the
network answers and when a limiter lets a caller through is up to the
environment, so pacing is a point a worker may pass at any time.

A waiting caller may take any free permit here. The semaphore's own queue only
restricts which of them does.
-/

namespace BlastDns.Worker

open Health NetText

structure Record where
  ttl : ℕ
  rdata : String
  deriving DecidableEq

structure DnsResponse where
  responseCode : ℕ
  truncated : Bool
  answers : List Record
  deriving DecidableEq

structure QuerySpec where
  host : String
  recordType : ℕ
  deriving DecidableEq

/-- A work item; the responder is known by the number of its channel. -/
structure WorkItem where
  query : QuerySpec
  responder : ℕ
  deriving DecidableEq

abbrev Answer := Except BlastDNSError DnsResponse

/-- The locals of one pass of `reserve` over the pool. -/
structure Scan (n : ℕ) where
  offset : ℕ
  next : ℕ := 0
  active : ℕ := 0
  benched : ℕ := 0
  waitable : Option (Fin n) := none

/-- Where a worker stands while it holds a permit. -/
inductive Hold where
  -- granted after waiting, `is_active` not yet read again
  | granted
  -- `is_benched` not yet read again
  | confirming
  | reserved
  | rated
  | ready
  | querying (startedNs : ℕ)
  | arrived (startedNs : ℕ) (result : Answer)
  | refetching (startedNs : ℕ) (udp : DnsResponse)
  | completed (startedNs : ℕ) (response : DnsResponse)
  | recorded (result : Answer)

/-- Where a worker stands with an item in hand. -/
inductive Stage (n : ℕ) where
  | received
  | pacing
  | reserving
  | visiting (scan : Scan n)
  | checking (scan : Scan n) (resolver : Fin n)
  | trying (scan : Scan n) (resolver : Fin n)
  | sleeping (untilNs : ℕ)
  | waiting (resolver : Fin n)
  | holding (resolver : Fin n) (hold : Hold)

inductive Phase (n : ℕ) where
  | idle
  | stopped
  | working (item : WorkItem) (stage : Stage n)
  -- responded, with the reservation about to be dropped
  | releasing (resolver : Fin n)

structure Shared (n : ℕ) where
  pool : Fin n → ResolverHealth
  cursor : ℕ := 0
  nowNs : ℕ := 0
  queue : List WorkItem := []
  queueCapacity : ℕ
  closed : Bool := false
  -- how many response channels have been opened
  opened : ℕ := 0
  -- every `responder.send`, in order
  sent : List (ℕ × Answer) := []

/-- What moves a worker: its own code, or an answer from the network. -/
inductive Label where
  | proceed
  | answer (result : Answer)
  | refetched (full : Option DnsResponse)

namespace Shared

variable {n : ℕ}

def setResolver (shared : Shared n) (i : Fin n) (health : ResolverHealth) : Shared n :=
  { shared with pool := Function.update shared.pool i health }

def respond (shared : Shared n) (item : WorkItem) (result : Answer) : Shared n :=
  { shared with sent := shared.sent ++ [(item.responder, result)] }

/-- `sleep_until_first_eligible`: the first active resolver's release, or now. -/
def firstEligible (shared : Shared n) : ℕ :=
  (((List.finRange n).filter fun i => (shared.pool i).active).map
    fun i => (shared.pool i).benchedUntilNs).min?.getD shared.nowNs

/-- The resolver a pass looks at next; the index sum is a u64. -/
def selected (scan : Scan n) (positive : 0 < n) : Fin n :=
  ⟨(scan.offset + scan.next) % 2 ^ 64 % n, Nat.mod_lt _ positive⟩

end Shared

section Holding

/-- `record_response(started.elapsed(), ..)` -/
def recordAnswer (health : ResolverHealth) (nowNs startedNs : ℕ) (response : DnsResponse) :
    ResolverHealth :=
  health.recordResponse ((nowNs - startedNs) / 1000 % 2 ^ 64) nowNs (!response.answers.isEmpty)

inductive Held where
  | keep (hold : Hold)
  -- inactive or benched after the wait: the permit is dropped
  | drop
  | respond (result : Answer)

/-- The steps between taking a permit and answering: the checks after a wait, both
paces, and `query` with its refetch. -/
def holdStep (health : ResolverHealth) (nowNs : ℕ) : Hold → Label → Option (ResolverHealth × Held)
  | .granted, .proceed =>
      some (health, if health.active then .keep .confirming else .drop)
  | .confirming, .proceed =>
      some (health, if health.isBenched nowNs then .drop else .keep .reserved)
  | .reserved, .proceed => some (health, .keep .rated)
  | .rated, .proceed => some (health, .keep .ready)
  -- from here to `recorded` the query counts as in flight
  | .ready, .proceed => some (health.recordDispatch, .keep (.querying nowNs))
  | .querying startedNs, .answer result => some (health, .keep (.arrived startedNs result))
  | .arrived startedNs (.ok response), .proceed =>
      if response.truncated then
        some (health.recordTruncated, .keep (.refetching startedNs response))
      else
        some (recordAnswer health nowNs startedNs response, .keep (.recorded (.ok response)))
  | .arrived _ (.error err), .proceed =>
      some (health.recordError err.isTimeout nowNs, .keep (.recorded (.error err)))
  | .refetching startedNs udp, .refetched full =>
      some (health, .keep (.completed startedNs (full.getD udp)))
  | .completed startedNs response, .proceed =>
      some (recordAnswer health nowNs startedNs response, .keep (.recorded (.ok response)))
  | .recorded result, .proceed => some (health, .respond result)
  | _, _ => none

end Holding

section Steps

variable {n : ℕ} {Name : Type} (fromAscii : String → Except ProtoError Name)

def afterScan (shared : Shared n) (item : WorkItem) (scan : Scan n) : Shared n × Phase n :=
  if scan.active = 0 then (shared.respond item (.error .noResolvers), .idle)
  else if scan.benched = scan.active then
    (shared, .working item (.sleeping shared.firstEligible))
  else
    match scan.waitable with
    | some i => (shared, .working item (.waiting i))
    | none => (shared, .working item .reserving)

def stageStep (shared : Shared n) (item : WorkItem) : Stage n → Option (Shared n × Phase n)
  | .received =>
      match fromAscii item.query.host with
      | .ok _ => some (shared, .working item .pacing)
      | .error source =>
          some (shared.respond item (.error (.invalidHostname item.query.host source)), .idle)
  | .pacing => some (shared, .working item .reserving)
  | .reserving =>
      if n = 0 then some (shared.respond item (.error .noResolvers), .idle)
      else
        some ({ shared with cursor := (shared.cursor + 1) % 2 ^ 64 },
          .working item (.visiting { offset := shared.cursor }))
  | .visiting scan =>
      if room : scan.next < n then
        let i := Shared.selected scan (Nat.zero_lt_of_lt room)
        if (shared.pool i).active then
          some (shared, .working item (.checking { scan with active := scan.active + 1 } i))
        else some (shared, .working item (.visiting { scan with next := scan.next + 1 }))
      else some (afterScan shared item scan)
  | .checking scan i =>
      if (shared.pool i).isBenched shared.nowNs then
        some (shared, .working item
          (.visiting { scan with benched := scan.benched + 1, next := scan.next + 1 }))
      else some (shared, .working item (.trying scan i))
  | .trying scan i =>
      -- the fast path does not look at `is_active` and `is_benched` again
      match (shared.pool i).tryAcquire with
      | some health => some (shared.setResolver i health, .working item (.holding i .reserved))
      | none =>
          some (shared, .working item (.visiting { scan with
            waitable := scan.waitable.or (some i), next := scan.next + 1 }))
  | .sleeping untilNs =>
      if untilNs ≤ shared.nowNs then some (shared, .working item .reserving) else none
  | .waiting i =>
      (shared.pool i).tryAcquire.map fun health =>
        (shared.setResolver i health, .working item (.holding i .granted))
  | .holding _ _ => none

def workerStep (shared : Shared n) (phase : Phase n) (label : Label) :
    Option (Shared n × Phase n) :=
  match phase, label with
  | .idle, .proceed =>
      match shared.queue with
      | item :: rest => some ({ shared with queue := rest }, .working item .received)
      | [] => if shared.closed then some (shared, .stopped) else none
  | .working item (.holding i hold), label =>
      (holdStep (shared.pool i) shared.nowNs hold label).map fun
        | (health, .keep next) => (shared.setResolver i health, .working item (.holding i next))
        | (health, .drop) => (shared.setResolver i health.release, .working item .reserving)
        | (health, .respond result) =>
            ((shared.setResolver i health).respond item result, .releasing i)
  | .working item stage, .proceed => stageStep fromAscii shared item stage
  | .releasing i, .proceed => some (shared.setResolver i (shared.pool i).release, .idle)
  | _, _ => none

inductive Environment (n : ℕ) where
  -- `work_tx.send` of a fresh item, once the bounded queue has room
  | enqueue (query : QuerySpec)
  -- the last sender is gone
  | close
  | elapse (nanos : ℕ)
  | probeFailed (resolver : Fin n)
  -- the controller sets a resolver's rate
  | setRate (resolver : Fin n) (queriesPerSecond : ℚ)

def environmentStep (shared : Shared n) : Environment n → Option (Shared n)
  | .enqueue query =>
      if shared.closed || shared.queueCapacity ≤ shared.queue.length then none
      else
        some { shared with
          queue := shared.queue ++ [{ query := query, responder := shared.opened }]
          opened := shared.opened + 1 }
  | .close => some { shared with closed := true }
  | .elapse nanos => some { shared with nowNs := shared.nowNs + nanos }
  | .probeFailed i => some (shared.setResolver i { shared.pool i with active := false })
  | .setRate i queriesPerSecond =>
      ((shared.pool i).limiter.setRate queriesPerSecond).map fun limiter =>
        shared.setResolver i { shared.pool i with limiter := limiter }

abbrev Dispatch (n : ℕ) := Crew.State (Shared n) (Phase n)

inductive Event (n : ℕ) where
  | worker (index : ℕ) (label : Label)
  | around (environment : Environment n)

def dispatchStep (dispatch : Dispatch n) : Event n → Option (Dispatch n)
  | .worker index label => Crew.act (workerStep fromAscii) dispatch index label
  | .around environment =>
      (environmentStep dispatch.shared environment).map fun shared => { dispatch with shared := shared }

def replay (events : List (Event n)) (dispatch : Dispatch n) : Option (Dispatch n) :=
  events.foldlM (dispatchStep fromAscii) dispatch

def newDispatch (pool : Fin n → ResolverHealth) (queueCapacity workers : ℕ) : Dispatch n where
  shared := { pool := pool, queueCapacity := queueCapacity }
  procs := List.replicate workers .idle

end Steps

end BlastDns.Worker
