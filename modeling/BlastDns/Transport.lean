import BlastDns.Worker
import Mathlib.Logic.Relation

/-!
The TCP side of one resolver. `tcp_client` connects once, on the first truncated
response, and keeps the client for good; a client whose connection has closed
stays in its cell and fails every query put to it. So what a truncated response
turns into depends on everything that happened to the connection before.
-/

namespace BlastDns.Transport

open Config Health Worker

/-- The `OnceCell` of the TCP client: not yet filled, or filled with a client whose
connection is still open or has closed. -/
inductive TcpCell where
  | empty
  | live
  | dead
  deriving DecidableEq

structure Exchange where
  startedNs : ℕ
  endedNs : ℕ
  -- the result of `query_bounded`
  udp : Answer
  -- connecting to the resolver over TCP, if that is tried
  connect : Except ProtoError Unit
  -- a query put to an open TCP connection
  tcp : Except ClientError DnsResponse

structure Endpoint where
  health : ResolverHealth
  cell : TcpCell := .empty

/-- `get_or_try_init`: a failed connect leaves the cell empty. -/
def tcpClient (endpoint : Endpoint) (exchange : Exchange) : Except BlastDNSError Unit × TcpCell :=
  match endpoint.cell with
  | .empty =>
      match exchange.connect with
      | .ok () => (.ok (), .live)
      | .error source => (.error (.resolverSetupFailed endpoint.health.resolver source), .empty)
  | cell => (.ok (), cell)

def refetchOverTcp (endpoint : Endpoint) (exchange : Exchange) : Option DnsResponse × TcpCell :=
  match tcpClient endpoint exchange with
  | (.error _, cell) => (none, cell)
  | (.ok (), .live) =>
      match exchange.tcp with
      | .ok response => (some response, .live)
      | .error _ => (none, .live)
  -- a client without a connection fails every query
  | (.ok (), cell) => (none, cell)

def query (endpoint : Endpoint) (exchange : Exchange) : Answer × Endpoint :=
  let health := endpoint.health.recordDispatch
  match exchange.udp with
  | .ok response =>
      if response.truncated then
        let (full, cell) := refetchOverTcp endpoint exchange
        let response := full.getD response
        (.ok response,
          { health := recordAnswer health.recordTruncated exchange.endedNs exchange.startedNs response
            cell := cell })
      else
        (.ok response,
          { endpoint with
            health := recordAnswer health exchange.endedNs exchange.startedNs response })
  | .error err =>
      (.error err,
        { endpoint with health := health.recordError err.isTimeout exchange.endedNs })

section Hold

def HoldMove (before after : ResolverHealth × Hold) : Prop :=
  ∃ nowNs label, holdStep before.1 nowNs before.2 label = some (after.1, .keep after.2)

/-- `query` is what a worker does from `ready` to `recorded` when its refetch is
answered by the TCP side. -/
theorem query_moves_hold (endpoint : Endpoint) (exchange : Exchange) :
    Relation.ReflTransGen HoldMove (endpoint.health, .ready)
      ((query endpoint exchange).2.health, .recorded (query endpoint exchange).1) := by
  have dispatched : HoldMove (endpoint.health, .ready)
      (endpoint.health.recordDispatch, .querying exchange.startedNs) :=
    ⟨exchange.startedNs, .proceed, rfl⟩
  have arrived : HoldMove (endpoint.health.recordDispatch, .querying exchange.startedNs)
      (endpoint.health.recordDispatch, .arrived exchange.startedNs exchange.udp) :=
    ⟨exchange.endedNs, .answer exchange.udp, rfl⟩
  apply Relation.ReflTransGen.head dispatched
  apply Relation.ReflTransGen.head arrived
  rw [query]
  cases exchange.udp with
  | error err => exact .single ⟨exchange.endedNs, .proceed, rfl⟩
  | ok response =>
      cases tc : response.truncated with
      | false =>
          apply Relation.ReflTransGen.single
          exact ⟨exchange.endedNs, .proceed, by simp [holdStep, tc]⟩
      | true =>
          have counted : HoldMove
              (endpoint.health.recordDispatch, .arrived exchange.startedNs (.ok response))
              (endpoint.health.recordDispatch.recordTruncated,
                .refetching exchange.startedNs response) :=
            ⟨exchange.endedNs, .proceed, by simp [holdStep, tc]⟩
          have refetched : HoldMove
              (endpoint.health.recordDispatch.recordTruncated,
                .refetching exchange.startedNs response)
              (endpoint.health.recordDispatch.recordTruncated,
                .completed exchange.startedNs
                  ((refetchOverTcp endpoint exchange).1.getD response)) :=
            ⟨exchange.endedNs, .refetched (refetchOverTcp endpoint exchange).1, rfl⟩
          apply Relation.ReflTransGen.head counted
          apply Relation.ReflTransGen.head refetched
          apply Relation.ReflTransGen.single
          exact ⟨exchange.endedNs, .proceed, by simp [holdStep, tc]⟩

end Hold

section Histories

/-- What happens to a resolver: a query, or the peer closes an idle connection. -/
inductive Event where
  | query (exchange : Exchange)
  | close

def close : TcpCell → TcpCell
  | .live => .dead
  | cell => cell

def happen (endpoint : Endpoint) : Event → Endpoint × Option Answer
  | .query exchange => ((query endpoint exchange).2, some (query endpoint exchange).1)
  | .close => ({ endpoint with cell := close endpoint.cell }, none)

def answers : Endpoint → List Event → List Answer
  | _, [] => []
  | endpoint, event :: rest =>
      (happen endpoint event).2.toList ++ answers (happen endpoint event).1 rest

/-- The resolver accepts every connection and answers completely on an open one. -/
def Cooperative : Event → Prop
  | .query exchange => exchange.connect = .ok () ∧
      ∃ response, exchange.tcp = .ok response ∧ response.truncated = false
  | .close => True

def isTruncated : Answer → Bool
  | .ok response => response.truncated
  | .error _ => false

/-- A truncated response comes over UDP while the cell holds a dead client. -/
def meetsDead (endpoint : Endpoint) : Event → Bool
  | .query exchange => isTruncated exchange.udp && decide (endpoint.cell = .dead)
  | .close => false

def NeverMeetsDead : Endpoint → List Event → Prop
  | _, [] => True
  | endpoint, event :: rest =>
      meetsDead endpoint event = false ∧ NeverMeetsDead (happen endpoint event).1 rest

theorem refetch_cooperative (endpoint : Endpoint) {exchange : Exchange}
    (cooperative : Cooperative (.query exchange)) :
    (endpoint.cell = .dead → (refetchOverTcp endpoint exchange).1 = none) ∧
      (endpoint.cell ≠ .dead → ∃ response, (refetchOverTcp endpoint exchange).1 = some response ∧
        response.truncated = false) := by
  rcases cooperative with ⟨accepts, full, answered, complete⟩
  cases held : endpoint.cell with
  | empty => simp [refetchOverTcp, tcpClient, held, accepts, answered, complete]
  | live => simp [refetchOverTcp, tcpClient, held, answered, complete]
  | dead => simp [refetchOverTcp, tcpClient, held]

/-- A query returns a truncated response exactly when the refetch meets a dead client. -/
theorem query_truncated_iff (endpoint : Endpoint) {exchange : Exchange}
    (cooperative : Cooperative (.query exchange)) :
    isTruncated (query endpoint exchange).1 = meetsDead endpoint (.query exchange) := by
  rcases refetch_cooperative endpoint cooperative with ⟨dead, alive⟩
  rw [meetsDead, query]
  cases udp : exchange.udp with
  | error err => rfl
  | ok response =>
      cases tc : response.truncated with
      | false => simp [isTruncated, tc]
      | true =>
          by_cases held : endpoint.cell = .dead
          · simp [isTruncated, tc, held, dead held]
          · rcases alive held with ⟨full, refetched, complete⟩
            simp [isTruncated, tc, held, refetched, complete]

/-- In a history with a resolver whose TCP works, every truncated answer is completed
exactly as long as no truncated response meets a client whose connection has
closed. -/
theorem completed_iff_never_dead (endpoint : Endpoint) (events : List Event)
    (cooperative : ∀ event ∈ events, Cooperative event) :
    (∀ answer ∈ answers endpoint events, isTruncated answer = false) ↔
      NeverMeetsDead endpoint events := by
  induction events generalizing endpoint with
  | nil => simp [answers, NeverMeetsDead]
  | cons event rest ih =>
      have later := ih (happen endpoint event).1
        (fun event member => cooperative event (List.mem_cons_of_mem _ member))
      rw [answers, NeverMeetsDead, ← later]
      cases event with
      | close => simp [happen, meetsDead]
      | query exchange =>
          have first := query_truncated_iff endpoint (cooperative _ List.mem_cons_self)
          rw [← first]
          simp [happen]

def fresh : Endpoint where
  health := newHealth (.v4 ⟨127, 0, 0, 1⟩ 53) {}

/-- A response that does not fit over UDP and is complete over TCP. -/
def oversized (startedNs : ℕ) : Event :=
  .query {
    startedNs := startedNs
    endedNs := startedNs + 1000
    udp := .ok ⟨0, true, [⟨60, "10.0.0.1"⟩]⟩
    connect := .ok ()
    tcp := .ok ⟨0, false, [⟨60, "10.0.0.1"⟩, ⟨60, "10.0.0.2"⟩]⟩ }

theorem oversized_cooperative (startedNs : ℕ) : Cooperative (oversized startedNs) :=
  ⟨rfl, _, rfl, rfl⟩

theorem completed_iff_never_dead_open :
    NeverMeetsDead fresh [oversized 0, oversized 5000] ∧
      ∀ answer ∈ answers fresh [oversized 0, oversized 5000], isTruncated answer = false := by
  have alive : NeverMeetsDead fresh [oversized 0, oversized 5000] :=
    ⟨by decide, by decide +kernel, trivial⟩
  refine ⟨alive, (completed_iff_never_dead fresh [oversized 0, oversized 5000] ?_).mpr alive⟩
  intro event member
  rcases List.mem_pair.mp member with rfl | rfl
  · exact oversized_cooperative 0
  · exact oversized_cooperative 5000

/-- The resolver closes the idle connection between two oversized answers, would
accept another one and answer on it, and the second query still returns what
came over UDP. -/
theorem closed_connection_leaves_truncated :
    (∀ event ∈ [oversized 0, .close, oversized 5000], Cooperative event) ∧
      ∃ answer ∈ answers fresh [oversized 0, .close, oversized 5000],
        isTruncated answer = true := by
  constructor
  · intro event member
    simp only [List.mem_cons, List.not_mem_nil, or_false] at member
    rcases member with rfl | rfl | rfl
    · exact oversized_cooperative 0
    · trivial
    · exact oversized_cooperative 5000
  · have second : answers fresh [oversized 0, .close, oversized 5000] =
        [.ok ⟨0, false, [⟨60, "10.0.0.1"⟩, ⟨60, "10.0.0.2"⟩]⟩,
          .ok ⟨0, true, [⟨60, "10.0.0.1"⟩]⟩] := rfl
    rw [second]
    exact ⟨_, List.mem_cons_of_mem _ List.mem_cons_self, rfl⟩

end Histories

end BlastDns.Transport
