import BlastDns.GlobalCap
import BlastDns.Handling
import BlastDns.RetryLoop

/-!
Many calls of `resolve_full` at once, over the handles, the queue and the workers
of one client. A call is where its code stands: one await, one access to the
cache or one update of a counter to a step. Dropping its future ends it at an
await and nowhere else. What every attempt came to, and what the network replied
to every query, is written down so that results can be traced to it.

A channel is never dropped unanswered: no worker gives up an item it holds.
-/

namespace BlastDns.Calls

open Accounting Cache Client Config Crew GlobalCap Lru NetText Resolve RetryLoop Worker

inductive Reply where
  | udp (result : Answer)
  | tcp (response : DnsResponse)

/-- What the network replied to a worker about a query. -/
structure Exchange (n : ℕ) where
  query : QuerySpec
  resolver : Fin n
  reply : Reply

inductive Progress where
  -- in `ensure_workers`
  | ensuring
  | looking
  | offering (attempt : ℕ)
  | awaiting (attempt channel : ℕ)
  | judging (attempt : ℕ) (result : Answer)
  | storing (response : DnsResponse)
  | completing (response : DnsResponse)
  -- the two counters of a lost query, one after the other
  | conceding (err : BlastDNSError)
  | failing (err : BlastDNSError)
  | returned (result : Answer)
  | cancelled
  | panicked

structure Caller where
  handle : ℕ
  host : String
  recordType : ℕ
  progress : Progress := .ensuring
  heard : List Attempt := []

namespace Caller

def query (caller : Caller) : QuerySpec where
  host := if caller.recordType = ptrType then formatPtrQuery caller.host else caller.host
  recordType := caller.recordType

def goes (caller : Caller) (progress : Progress) : Caller := { caller with progress := progress }

def hears (caller : Caller) (attempt : Attempt) (progress : Progress) : Caller :=
  { caller with progress := progress, heard := caller.heard ++ [attempt] }

end Caller

inductive CallLabel where
  | proceed
  -- the future is dropped
  | cancel

section Steps

variable {Name : Type} [DecidableEq Name] {lru : LruCache (Name × ℕ) CacheEntry} {n : ℕ}

/-- What the calls of a client share. -/
structure Floor (n : ℕ) (lru : LruCache (Name × ℕ) CacheEntry) where
  system : System n
  client : ClientState lru
  exchanges : List (Exchange n) := []

abbrev Desk (n : ℕ) (lru : LruCache (Name × ℕ) CacheEntry) := Crew.State (Floor n lru) Caller

def Floor.nowNs (floor : Floor n lru) : ℕ := floor.system.dispatch.shared.nowNs

variable {Wire : Type} (fromAscii : String → Except ProtoError Wire) (config : BlastDNSConfig)
variable (parse : String → Option Name) (latest : ℕ)

/-- `work_tx.send`: at once if the queue is closed, else once it has room. -/
def offerStep (floor : Floor n lru) (caller : Caller) (attempt : ℕ) :
    Option (Floor n lru × Caller) :=
  if floor.system.dispatch.shared.closed then
    some ({ floor with client := floor.client.offer caller.query },
      caller.hears .closed (.returned (.error .queueClosed)))
  else
    (systemStep fromAscii config floor.system (.submit caller.handle caller.query)).map fun system =>
      ({ floor with system := system, client := floor.client.offer caller.query },
        caller.goes (.awaiting attempt floor.system.dispatch.shared.opened))

/-- The verdict on one attempt. -/
def judge (attempt : ℕ) : Answer → Progress
  | .ok response =>
      if !answersTheQuestion response && attempt + 1 < attemptsFor config.maxRetries then
        .offering (attempt + 1)
      else .storing response
  | .error err =>
      if attempt + 1 = attemptsFor config.maxRetries || !err.isRetryable then
        if err.isCongestionEvidence then .conceding err else .returned (.error err)
      else .offering (attempt + 1)

def proceedStep (floor : Floor n lru) (caller : Caller) : Option (Floor n lru × Caller) :=
  match caller.progress with
  | .ensuring =>
      if floor.system.handles[caller.handle]? = some .set then some (floor, caller.goes .looking)
      else none
  | .looking =>
      match floor.client.lookup parse caller.query floor.nowNs with
      | (some response, client) =>
          some ({ floor with client := client }, caller.goes (.returned (.ok response)))
      | (none, client) => some ({ floor with client := client }, caller.goes (.offering 0))
  | .offering attempt =>
      if attempt < attemptsFor config.maxRetries then
        offerStep fromAscii config floor caller attempt
      else some (floor, caller.goes (.returned (.error .workerDropped)))
  | .awaiting attempt channel =>
      (floor.system.dispatch.shared.sent.lookup channel).map fun result =>
        (floor, caller.hears (.answered result) (.judging attempt result))
  | .judging attempt result => some (floor, caller.goes (judge config attempt result))
  | .storing response =>
      match floor.client.store parse latest caller.query response floor.nowNs with
      | some client => some ({ floor with client := client }, caller.goes (.completing response))
      | none => some (floor, caller.goes .panicked)
  | .completing response =>
      some ({ floor with client := floor.client.completed },
        caller.goes (.returned (.ok response)))
  | .conceding err =>
      some ({ floor with client := floor.client.completed }, caller.goes (.failing err))
  | .failing err =>
      some ({ floor with client := floor.client.failed }, caller.goes (.returned (.error err)))
  | .returned _ | .cancelled | .panicked => none

def callStep (floor : Floor n lru) (caller : Caller) : CallLabel → Option (Floor n lru × Caller)
  | .proceed => proceedStep fromAscii config parse latest floor caller
  | .cancel =>
      match caller.progress with
      | .ensuring | .offering _ | .awaiting _ _ => some (floor, caller.goes .cancelled)
      | _ => none

/-- What a worker's step lets in from the network. -/
def exchanged (phase : Phase n) (label : Label) : List (Exchange n) :=
  match phase, label with
  | .working item (.holding i (.querying _)), .answer result =>
      [{ query := item.query, resolver := i, reply := .udp result }]
  | .working item (.holding i (.refetching _ _)), .refetched (some full) =>
      [{ query := item.query, resolver := i, reply := .tcp full }]
  | _, _ => []

def noted (system : System n) : Action n → List (Exchange n)
  | .worker index label =>
      (system.dispatch.procs[index]?.map fun phase => exchanged phase label).getD []
  | _ => []

inductive DeskEvent (n : ℕ) where
  | arrive (handle : ℕ) (host : String) (recordType : ℕ)
  | call (index : ℕ) (label : CallLabel)
  | system (action : Action n)

def deskStep (desk : Desk n lru) : DeskEvent n → Option (Desk n lru)
  | .arrive handle host recordType =>
      if handle < desk.shared.system.handles.length then
        some (hire desk [{ handle := handle, host := host, recordType := recordType }])
      else none
  | .call index label => act (callStep fromAscii config parse latest) desk index label
  -- the calls are the only ones to submit
  | .system (.submit _ _) => none
  | .system action =>
      (systemStep fromAscii config desk.shared.system action).map fun system =>
        { desk with shared := { desk.shared with
          system := system
          exchanges := desk.shared.exchanges ++ noted desk.shared.system action } }

def newDesk (lru : LruCache (Name × ℕ) CacheEntry) (client : BlastDNSClient) :
    Desk client.resolvers.length lru where
  shared := {
    system := newSystem client
    client := { cache := newCache lru client.config } }
  procs := []

end Steps

section Moves

variable {Name : Type} [DecidableEq Name] {lru : LruCache (Name × ℕ) CacheEntry} {n : ℕ}
variable {Wire : Type} (fromAscii : String → Except ProtoError Wire) (config : BlastDNSConfig)
variable (parse : String → Option Name) (latest : ℕ)

/-- Everything a call can do next, by where it stands. -/
inductive Moves (floor : Floor n lru) (caller : Caller) : Floor n lru → Caller → Prop
  | ensured (place : caller.progress = .ensuring)
      (used : floor.system.handles[caller.handle]? = some .set) :
      Moves floor caller floor (caller.goes .looking)
  | hit (place : caller.progress = .looking) {response : DnsResponse} {client : ClientState lru}
      (looked : floor.client.lookup parse caller.query floor.nowNs = (some response, client)) :
      Moves floor caller { floor with client := client } (caller.goes (.returned (.ok response)))
  | missed (place : caller.progress = .looking) {client : ClientState lru}
      (looked : floor.client.lookup parse caller.query floor.nowNs = (none, client)) :
      Moves floor caller { floor with client := client } (caller.goes (.offering 0))
  | exhausted {attempt : ℕ} (place : caller.progress = .offering attempt)
      (past : ¬ attempt < attemptsFor config.maxRetries) :
      Moves floor caller floor (caller.goes (.returned (.error .workerDropped)))
  | refused {attempt : ℕ} (place : caller.progress = .offering attempt)
      (closed : floor.system.dispatch.shared.closed = true) :
      Moves floor caller { floor with client := floor.client.offer caller.query }
        (caller.hears .closed (.returned (.error .queueClosed)))
  | offered {attempt : ℕ} (place : caller.progress = .offering attempt)
      (within : attempt < attemptsFor config.maxRetries) {system : System n}
      (accepting : floor.system.dispatch.shared.closed = false)
      (submitted : systemStep fromAscii config floor.system
        (.submit caller.handle caller.query) = some system) :
      Moves floor caller
        { floor with system := system, client := floor.client.offer caller.query }
        (caller.goes (.awaiting attempt floor.system.dispatch.shared.opened))
  | heard {attempt channel : ℕ} (place : caller.progress = .awaiting attempt channel)
      {result : Answer} (sent : (channel, result) ∈ floor.system.dispatch.shared.sent) :
      Moves floor caller floor (caller.hears (.answered result) (.judging attempt result))
  | judged {attempt : ℕ} {result : Answer} (place : caller.progress = .judging attempt result) :
      Moves floor caller floor (caller.goes (judge config attempt result))
  | stored {response : DnsResponse} (place : caller.progress = .storing response)
      {client : ClientState lru}
      (kept : floor.client.store parse latest caller.query response floor.nowNs = some client) :
      Moves floor caller { floor with client := client } (caller.goes (.completing response))
  | panics {response : DnsResponse} (place : caller.progress = .storing response) :
      Moves floor caller floor (caller.goes .panicked)
  | completes {response : DnsResponse} (place : caller.progress = .completing response) :
      Moves floor caller { floor with client := floor.client.completed }
        (caller.goes (.returned (.ok response)))
  | concedes {err : BlastDNSError} (place : caller.progress = .conceding err) :
      Moves floor caller { floor with client := floor.client.completed } (caller.goes (.failing err))
  | fails {err : BlastDNSError} (place : caller.progress = .failing err) :
      Moves floor caller { floor with client := floor.client.failed }
        (caller.goes (.returned (.error err)))
  | cancels (place : caller.progress = .ensuring ∨ (∃ attempt, caller.progress = .offering attempt) ∨
        ∃ attempt channel, caller.progress = .awaiting attempt channel) :
      Moves floor caller floor (caller.goes .cancelled)

variable {fromAscii config parse latest} {floor after : Floor n lru} {caller moved : Caller}

theorem call_step_moves {label : CallLabel}
    (stepped : callStep fromAscii config parse latest floor caller label = some (after, moved)) :
    Moves fromAscii config parse latest floor caller after moved := by
  cases label with
  | cancel =>
      simp only [callStep] at stepped
      split at stepped
      · rename_i place
        cases stepped
        exact .cancels (.inl place)
      · rename_i attempt place
        cases stepped
        exact .cancels (.inr (.inl ⟨attempt, place⟩))
      · rename_i attempt channel place
        cases stepped
        exact .cancels (.inr (.inr ⟨attempt, channel, place⟩))
      · cases stepped
  | proceed =>
      simp only [callStep, proceedStep] at stepped
      split at stepped
      · rename_i place
        split at stepped <;> cases stepped
        rename_i used
        exact .ensured place used
      · rename_i place
        split at stepped
        · rename_i looked
          cases stepped
          exact .hit place looked
        · rename_i looked
          cases stepped
          exact .missed place looked
      · rename_i attempt place
        split at stepped
        · rename_i within
          rw [offerStep] at stepped
          split at stepped
          · rename_i closed
            cases stepped
            exact .refused place closed
          · rename_i accepting
            rcases Option.map_eq_some_iff.mp stepped with ⟨system, submitted, same⟩
            cases same
            exact .offered place within (Bool.eq_false_iff.mpr accepting) submitted
        · rename_i past
          cases stepped
          exact .exhausted place past
      · rename_i attempt channel place
        rcases Option.map_eq_some_iff.mp stepped with ⟨result, found, same⟩
        cases same
        rcases List.lookup_eq_some_iff.mp found with ⟨earlier, further, sent, _⟩
        exact .heard place (by simp [sent])
      · rename_i attempt result place
        cases stepped
        exact .judged place
      · rename_i response place
        split at stepped
        · rename_i kept
          cases stepped
          exact .stored place kept
        · cases stepped
          exact .panics place
      · rename_i response place
        cases stepped
        exact .completes place
      · rename_i err place
        cases stepped
        exact .concedes place
      · rename_i err place
        cases stepped
        exact .fails place
      all_goals cases stepped

end Moves

theorem system_step_around {n : ℕ} {Wire : Type} {fromAscii : String → Except ProtoError Wire}
    {config : BlastDNSConfig} {system after : System n} {environment : Environment n}
    (stepped : systemStep fromAscii config system (.around environment) = some after) :
    (∀ query, environment ≠ .enqueue query) ∧
    ∃ shared, environmentStep system.dispatch.shared environment = some shared ∧
      after = { system with dispatch := { system.dispatch with shared := shared } } := by
  have free : ∀ query, environment ≠ .enqueue query := by
    rintro query rfl
    cases stepped
  have moved : dispatchTo fromAscii system (.around environment) = some after := by
    cases environment
    case enqueue => cases stepped
    all_goals exact stepped
  rcases Option.map_eq_some_iff.mp moved with ⟨dispatch, dispatched, same⟩
  rcases Option.map_eq_some_iff.mp dispatched with ⟨shared, around, rfl⟩
  exact ⟨free, shared, around, same.symm⟩

/-- The system once a query has been enqueued. -/
def submitted {n : ℕ} (system : System n) (query : QuerySpec) : System n :=
  { system with dispatch := { system.dispatch with shared := { system.dispatch.shared with
    queue := system.dispatch.shared.queue ++
      [{ query := query, responder := system.dispatch.shared.opened }]
    opened := system.dispatch.shared.opened + 1 } } }

theorem system_step_submit {n : ℕ} {Wire : Type} {fromAscii : String → Except ProtoError Wire}
    {config : BlastDNSConfig} {system after : System n} {handle : ℕ} {query : QuerySpec} :
    systemStep fromAscii config system (.submit handle query) = some after ↔
      system.handles[handle]? = some .set ∧ system.dispatch.shared.closed = false ∧
        system.dispatch.shared.queue.length < system.dispatch.shared.queueCapacity ∧
        after = submitted system query := by
  simp only [systemStep, dispatchTo, dispatchStep, environmentStep]
  split
  · rename_i used
    split
    · rename_i refused
      simp only [Option.map_none, reduceCtorEq, false_iff, not_and]
      intro _ accepting room
      simp only [accepting, Bool.false_or, decide_eq_true_eq] at refused
      omega
    · rename_i accepted
      simp only [Bool.or_eq_true, decide_eq_true_eq, not_or, Bool.not_eq_true, not_le] at accepted
      constructor
      · intro enqueued
        exact ⟨used, accepted.1, accepted.2, (Option.some.inj enqueued).symm⟩
      · rintro ⟨_, _, _, rfl⟩
        rfl
  · rename_i unused
    simp [unused]

end BlastDns.Calls
