import BlastDns.CallRuns

/-!
Where a result comes from. A query goes from its call to the queue, from there to
some worker, to an entry of the pool and to the network, and a reply all the way
back, while other calls and workers do the same. What a call returns is a reply to
that very query, or was once a reply to a query with the same key in the cache;
an error is the network's answer to it, the worker's refusal, or a closed queue.
-/

namespace BlastDns.Calls

open Accounting Cache Client Config Controller Crew GlobalCap Handling Health Lru NetText Resolve
open RetryLoop Runs Worker

variable {n : ℕ} {Wire : Type} {fromAscii : String → Except ProtoError Wire}

def Reply.gives : Reply → Answer → Prop
  | .udp result, answer => answer = result
  | .tcp response, answer => answer = .ok response

section Replies

/-- The network gave this answer to this query. -/
def Replied (exchanges : List (Exchange n)) (query : QuerySpec) (answer : Answer) : Prop :=
  ∃ exchange ∈ exchanges, exchange.query = query ∧ exchange.reply.gives answer

/-- An answer on a channel: a reply, or why no query was sent. -/
inductive Sourced (fromAscii : String → Except ProtoError Wire) (exchanges : List (Exchange n))
    (query : QuerySpec) : Answer → Prop
  | replied {answer : Answer} (reply : Replied exchanges query answer) :
      Sourced fromAscii exchanges query answer
  | refused {err : BlastDNSError} (why : Refusal fromAscii query err) :
      Sourced fromAscii exchanges query (.error err)

def HoldTraced (exchanges : List (Exchange n)) (query : QuerySpec) : Hold → Prop
  | .arrived _ result | .recorded result => Replied exchanges query result
  | .refetching _ response | .completed _ response => Replied exchanges query (.ok response)
  | _ => True

/-- A worker carries an item under the channel it was offered on. -/
def PhaseTraced (offered : List QuerySpec) (exchanges : List (Exchange n)) : Phase n → Prop
  | .working item (.holding _ hold) =>
      offered[item.responder]? = some item.query ∧ HoldTraced exchanges item.query hold
  | .working item _ => offered[item.responder]? = some item.query
  | .idle | .stopped | .releasing _ => True

variable {offered : List QuerySpec} {exchanges more : List (Exchange n)} {query : QuerySpec}

theorem replied_grows {answer : Answer} (replied : Replied exchanges query answer) :
    Replied (exchanges ++ more) query answer := by
  rcases replied with ⟨exchange, member, rest⟩
  exact ⟨exchange, List.mem_append_left _ member, rest⟩

theorem sourced_grows {answer : Answer} (sourced : Sourced fromAscii exchanges query answer) :
    Sourced fromAscii (exchanges ++ more) query answer := by
  cases sourced with
  | replied reply => exact .replied (replied_grows reply)
  | refused why => exact .refused why

theorem replied_last {i : Fin n} {reply : Reply} {answer : Answer} (gives : reply.gives answer) :
    Replied (exchanges ++ [{ query := query, resolver := i, reply := reply }]) query answer :=
  ⟨_, List.mem_append_right _ List.mem_cons_self, rfl, gives⟩

theorem hold_grows {hold : Hold} (traced : HoldTraced exchanges query hold) :
    HoldTraced (exchanges ++ more) query hold := by
  cases hold
  case arrived => exact replied_grows traced
  case recorded => exact replied_grows traced
  case refetching => exact replied_grows traced
  case completed => exact replied_grows traced
  all_goals trivial

theorem offered_grows {channel : ℕ} {further : List QuerySpec}
    (found : offered[channel]? = some query) : (offered ++ further)[channel]? = some query := by
  rcases List.getElem?_eq_some_iff.mp found with ⟨inside, _⟩
  rw [List.getElem?_append_left inside, found]

theorem phase_item {item : WorkItem} {stage : Stage n}
    (traced : PhaseTraced offered exchanges (.working item stage)) :
    offered[item.responder]? = some item.query := by
  cases stage
  case holding => exact traced.1
  all_goals exact traced

theorem phase_unheld {item : WorkItem} {stage : Stage n}
    (found : offered[item.responder]? = some item.query)
    (early : ∀ i hold, stage = .holding i hold → hold = .reserved ∨ hold = .granted) :
    PhaseTraced offered exchanges (.working item stage) := by
  cases stage
  case holding i hold =>
    refine ⟨found, ?_⟩
    rcases early i hold rfl with rfl | rfl <;> trivial
  all_goals exact found

theorem phase_grows {phase : Phase n} {further : List QuerySpec}
    (traced : PhaseTraced offered exchanges phase) :
    PhaseTraced (offered ++ further) (exchanges ++ more) phase := by
  cases phase with
  | idle => trivial
  | stopped => trivial
  | releasing i => trivial
  | working item stage =>
      cases stage
      case holding i hold => exact ⟨offered_grows traced.1, hold_grows traced.2⟩
      all_goals exact offered_grows traced

/-- What a holder has comes from the network, and what it answers is what it has. -/
theorem hold_step_traced {health next : ResolverHealth} {nowNs : ℕ} {item : WorkItem} (i : Fin n)
    {hold : Hold} {label : Label} {held : Held}
    (stepped : holdStep health nowNs hold label = some (next, held))
    (traced : HoldTraced exchanges item.query hold) :
    (∀ later, held = .keep later →
      HoldTraced (exchanges ++ exchanged (.working item (.holding i hold)) label) item.query
        later) ∧
    ∀ result, held = .respond result → Replied exchanges item.query result := by
  unfold holdStep at stepped
  split at stepped
  · -- granted
    cases stepped
    split <;> simp [HoldTraced]
  · -- confirming
    cases stepped
    split <;> simp [HoldTraced]
  · cases stepped
    simp [HoldTraced]
  · cases stepped
    simp [HoldTraced]
  · cases stepped
    simp [HoldTraced]
  · -- the network answers
    cases stepped
    refine ⟨?_, by simp⟩
    rintro _ ⟨⟩
    exact replied_last rfl
  · -- a response
    split at stepped
    · cases stepped
      refine ⟨?_, by simp⟩
      rintro _ ⟨⟩
      exact replied_grows traced
    · cases stepped
      refine ⟨?_, by simp⟩
      rintro _ ⟨⟩
      exact replied_grows traced
  · -- an error
    cases stepped
    refine ⟨?_, by simp⟩
    rintro _ ⟨⟩
    exact replied_grows traced
  · -- the refetch: the full response, or the truncated one if there is none
    rename_i full
    cases stepped
    refine ⟨?_, by simp⟩
    rintro _ ⟨⟩
    cases full with
    | none => exact replied_grows traced
    | some full => exact replied_last rfl
  · cases stepped
    refine ⟨?_, by simp⟩
    rintro _ ⟨⟩
    exact replied_grows traced
  · cases stepped
    refine ⟨by simp, ?_⟩
    rintro _ ⟨⟩
    exact traced
  · cases stepped

end Replies

section Floors

variable {Name : Type} [DecidableEq Name] {lru : LruCache (Name × ℕ) CacheEntry}

/-- The cache holds what was once a reply to a query with that key. -/
def CacheTraced (parse : String → Option Name) (exchanges : List (Exchange n))
    (cache : SimpleCache lru) : Prop :=
  ∀ key entry, (lru.recency cache.inner).lookup key = some entry →
    ∃ query, parse query.host = some key.1 ∧ query.recordType = key.2 ∧
      Replied exchanges query (.ok entry.response)

/-- Channels are numbered in the order of the offers, and everything under a number is
about the query that was offered under it. -/
structure FloorTraced (fromAscii : String → Except ProtoError Wire)
    (parse : String → Option Name) (floor : Floor n lru) : Prop where
  numbered : floor.system.dispatch.shared.closed = false →
    floor.system.dispatch.shared.opened = floor.client.offered.length
  queue : ∀ item ∈ floor.system.dispatch.shared.queue,
    floor.client.offered[item.responder]? = some item.query
  procs : ∀ phase ∈ floor.system.dispatch.procs,
    PhaseTraced floor.client.offered floor.exchanges phase
  sent : ∀ answer ∈ floor.system.dispatch.shared.sent, ∃ query,
    floor.client.offered[answer.1]? = some query ∧
      Sourced fromAscii floor.exchanges query answer.2
  cache : ∀ cache, floor.client.cache = some cache → CacheTraced parse floor.exchanges cache

variable {parse : String → Option Name} {floor : Floor n lru} {config : BlastDNSConfig}

theorem cache_grows {exchanges more : List (Exchange n)} {cache : SimpleCache lru}
    (traced : CacheTraced parse exchanges cache) :
    CacheTraced parse (exchanges ++ more) cache := by
  intro key entry found
  rcases traced key entry found with ⟨query, named, kind, replied⟩
  exact ⟨query, named, kind, replied_grows replied⟩

section Workers

variable {index : ℕ} {label : Label} {dispatch : Dispatch n}

/-- What the worker that moves carries stays with its channel, and what it sends on a
channel is an answer to the query of that channel. -/
theorem worker_traced {after : Shared n} {old new : Phase n}
    (traced : FloorTraced fromAscii parse floor) (member : old ∈ floor.system.dispatch.procs)
    (stepped : workerStep fromAscii floor.system.dispatch.shared old label = some (after, new)) :
    PhaseTraced floor.client.offered (floor.exchanges ++ exchanged old label) new ∧
    (∀ item ∈ after.queue, item ∈ floor.system.dispatch.shared.queue) ∧
    ∀ answer ∈ after.sent, ∃ query, floor.client.offered[answer.1]? = some query ∧
      Sourced fromAscii (floor.exchanges ++ exchanged old label) query answer.2 := by
  have holder := traced.procs old member
  have earlier : ∀ answer ∈ floor.system.dispatch.shared.sent, ∃ query,
      floor.client.offered[answer.1]? = some query ∧
        Sourced fromAscii (floor.exchanges ++ exchanged old label) query answer.2 := by
    intro answer sent
    rcases traced.sent answer sent with ⟨query, found, sourced⟩
    exact ⟨query, found, sourced_grows sourced⟩
  have appended : ∀ {item : WorkItem} {result : Answer},
      after.sent = floor.system.dispatch.shared.sent ++ [(item.responder, result)] →
      floor.client.offered[item.responder]? = some item.query →
      Sourced fromAscii (floor.exchanges ++ exchanged old label) item.query result →
      ∀ answer ∈ after.sent, ∃ query, floor.client.offered[answer.1]? = some query ∧
        Sourced fromAscii (floor.exchanges ++ exchanged old label) query answer.2 := by
    intro item result sent found sourced answer inside
    rw [sent] at inside
    rcases List.mem_append.mp inside with before | last
    · exact earlier answer before
    · rw [List.mem_singleton.mp last]
      exact ⟨item.query, found, sourced⟩
  cases (worker_step_handles stepped).1 with
  | receives queued sent =>
      refine ⟨traced.queue _ ?_, ?_, sent ▸ earlier⟩
      · rw [queued]
        exact List.mem_cons_self
      · intro item inside
        rw [queued]
        exact List.mem_cons_of_mem _ inside
  | stops closed empty same =>
      rw [same]
      exact ⟨trivial, fun _ inside => inside, earlier⟩
  | @works item stage next queue sent early =>
      refine ⟨?_, fun _ inside => queue ▸ inside, sent ▸ earlier⟩
      by_cases free : unheld stage = true
      · exact phase_unheld (phase_item holder) (early free)
      · cases stage
        case holding i hold =>
          rcases Option.map_eq_some_iff.mp stepped with ⟨⟨health, held⟩, moved, same⟩
          have kept := hold_step_traced i moved holder.2
          cases held with
          | keep later =>
              cases same
              exact ⟨holder.1, kept.1 later rfl⟩
          | drop =>
              cases same
              exact holder.1
          | respond result => cases same
        all_goals exact absurd rfl free
  | refuses why queue sent =>
      refine ⟨trivial, fun _ inside => queue ▸ inside, ?_⟩
      exact appended sent (phase_item holder) (.refused why)
  | answers queue sent =>
      refine ⟨trivial, fun _ inside => queue ▸ inside, ?_⟩
      exact appended sent holder.1 (.replied (replied_grows holder.2))
  | releases queue sent =>
      exact ⟨trivial, fun _ inside => queue ▸ inside, sent ▸ earlier⟩

theorem act_floor_traced (traced : FloorTraced fromAscii parse floor)
    (acted : act (workerStep fromAscii) floor.system.dispatch index label = some dispatch) :
    FloorTraced fromAscii parse { floor with
      system := { floor.system with dispatch := dispatch }
      exchanges := floor.exchanges ++ noted floor.system (.worker index label) } := by
  rcases act_some acted with ⟨old, shared, new, found, stepped, rfl⟩
  have member := List.mem_of_getElem? found
  have learned : noted floor.system (.worker index label) = exchanged old label := by
    simp [noted, found]
  have framed := (worker_step_handles stepped).2
  rcases worker_traced traced member stepped with ⟨moved, queue, sent⟩
  rw [learned]
  refine ⟨?_, fun item inside => traced.queue item (queue item inside), ?_, sent, ?_⟩
  · intro accepting
    rw [framed.closed] at accepting
    exact framed.opened.trans (traced.numbered accepting)
  · intro phase inside
    rcases List.mem_or_eq_of_mem_set inside with resting | rfl
    · have kept : PhaseTraced (floor.client.offered ++ [])
          (floor.exchanges ++ exchanged old label) phase := phase_grows (traced.procs phase resting)
      rwa [List.append_nil] at kept
    · exact moved
  · exact fun cache held => cache_grows (traced.cache cache held)

end Workers

/-- The surroundings leave every trace as it is. -/
theorem around_floor_traced {environment : Environment n} {shared : Shared n}
    (traced : FloorTraced fromAscii parse floor)
    (idle : ∀ query, environment ≠ .enqueue query)
    (stepped : environmentStep floor.system.dispatch.shared environment = some shared) :
    FloorTraced fromAscii parse { floor with
      system := { floor.system with dispatch := { floor.system.dispatch with shared := shared } } } := by
  cases environment_step_surrounds stepped with
  | enqueues => exact absurd rfl (idle _)
  | leaves _ queue sent opened closed =>
      refine ⟨?_, ?_, traced.procs, ?_, traced.cache⟩
      · intro accepting
        have before : floor.system.dispatch.shared.closed = false := by
          cases shut : floor.system.dispatch.shared.closed with
          | false => rfl
          | true => exact absurd ((closed shut).symm.trans accepting) (by decide)
        exact opened.trans (traced.numbered before)
      · intro item inside
        exact traced.queue item (queue ▸ inside)
      · intro answer inside
        exact traced.sent answer (sent ▸ inside)

theorem system_floor_traced {action : Action n} {system : System n}
    (traced : FloorTraced fromAscii parse floor)
    (free : ∀ handle query, action ≠ .submit handle query)
    (stepped : systemStep fromAscii config floor.system action = some system) :
    FloorTraced fromAscii parse { floor with
      system := system
      exchanges := floor.exchanges ++ noted floor.system action } := by
  cases action with
  | submit handle query => exact absurd rfl (free handle query)
  | worker index label =>
      rcases Option.map_eq_some_iff.mp stepped with ⟨dispatch, acted, rfl⟩
      exact act_floor_traced traced acted
  | clone handle =>
      rcases Option.map_eq_some_iff.mp stepped with ⟨cell, _, rfl⟩
      simp only [noted, List.append_nil]
      exact ⟨traced.numbered, traced.queue, traced.procs, traced.sent, traced.cache⟩
  | startInit handle =>
      simp only [systemStep] at stepped
      split at stepped <;> cases stepped
      simp only [noted, List.append_nil]
      exact ⟨traced.numbered, traced.queue, traced.procs, traced.sent, traced.cache⟩
  | cancelInit handle =>
      simp only [systemStep] at stepped
      split at stepped <;> cases stepped
      simp only [noted, List.append_nil]
      exact ⟨traced.numbered, traced.queue, traced.procs, traced.sent, traced.cache⟩
  | finishInit handle =>
      simp only [systemStep] at stepped
      split at stepped <;> cases stepped
      simp only [noted, List.append_nil]
      refine ⟨traced.numbered, traced.queue, ?_, traced.sent, traced.cache⟩
      intro phase member
      rcases List.mem_append.mp member with before | fresh
      · exact traced.procs phase before
      · rw [List.eq_of_mem_replicate fresh]
        trivial
  | around environment =>
      simp only [noted, List.append_nil]
      rcases system_step_around stepped with ⟨idle, shared, moved, rfl⟩
      exact around_floor_traced traced idle moved

end Floors

section Callers

variable {Name : Type} [DecidableEq Name] {lru : LruCache (Name × ℕ) CacheEntry}

/-- The two hosts are one name, and the query is of one type: one key of the cache. -/
def SameKey (parse : String → Option Name) (query other : QuerySpec) : Prop :=
  query.recordType = other.recordType ∧
    ∃ name, parse query.host = some name ∧ parse other.host = some name

def CallerTraced (fromAscii : String → Except ProtoError Wire) (parse : String → Option Name)
    (floor : Floor n lru) (caller : Caller) : Prop :=
  match caller.progress with
  | .ensuring | .looking => caller.heard = []
  | .offering _ | .cancelled | .panicked => True
  | .awaiting _ channel => floor.client.offered[channel]? = some caller.query
  | .judging _ result => Sourced fromAscii floor.exchanges caller.query result
  | .storing response | .completing response =>
      Replied floor.exchanges caller.query (.ok response)
  | .conceding err | .failing err => Sourced fromAscii floor.exchanges caller.query (.error err)
  | .returned (.ok response) =>
      Replied floor.exchanges caller.query (.ok response) ∨
        (caller.heard = [] ∧ ∃ query, SameKey parse query caller.query ∧
          Replied floor.exchanges query (.ok response))
  | .returned (.error err) =>
      (err = .queueClosed ∧ floor.system.dispatch.shared.closed = true) ∨
        Sourced fromAscii floor.exchanges caller.query (.error err)

/-- Offers, exchanges and the end of the queue are never taken back. -/
structure Grown (floor after : Floor n lru) : Prop where
  offered : ∃ further, after.client.offered = floor.client.offered ++ further
  exchanges : ∃ more, after.exchanges = floor.exchanges ++ more
  closed : floor.system.dispatch.shared.closed = true →
    after.system.dispatch.shared.closed = true

variable {parse : String → Option Name} {floor after : Floor n lru} {caller moved : Caller}
variable {config : BlastDNSConfig} {latest : ℕ}

theorem caller_grows (grown : Grown floor after)
    (traced : CallerTraced fromAscii parse floor caller) :
    CallerTraced fromAscii parse after caller := by
  rcases grown with ⟨⟨further, offered⟩, ⟨more, exchanges⟩, closed⟩
  unfold CallerTraced at traced ⊢
  rw [offered, exchanges]
  split at traced
  · exact traced
  · exact traced
  · exact traced
  · exact traced
  · exact traced
  · exact offered_grows traced
  · exact sourced_grows traced
  · exact replied_grows traced
  · exact replied_grows traced
  · exact sourced_grows traced
  · exact sourced_grows traced
  · rcases traced with own | ⟨heard, query, same, replied⟩
    · exact .inl (replied_grows own)
    · exact .inr ⟨heard, query, same, replied_grows replied⟩
  · rcases traced with ⟨refused, shut⟩ | sourced
    · exact .inl ⟨refused, closed shut⟩
    · exact .inr (sourced_grows sourced)

theorem sourced_ok {exchanges : List (Exchange n)} {query : QuerySpec} {response : DnsResponse}
    (sourced : Sourced fromAscii exchanges query (.ok response)) :
    Replied exchanges query (.ok response) := by
  cases sourced with
  | replied reply => exact reply

/-- The verdict on an answer keeps its source. -/
theorem judge_traced {attempt : ℕ} {result : Answer}
    (sourced : Sourced fromAscii floor.exchanges caller.query result) :
    CallerTraced fromAscii parse floor (caller.goes (judge config attempt result)) := by
  rcases judge_cases config attempt result with again | ⟨response, rfl, stores⟩ |
    ⟨err, rfl, _, concedes⟩ | ⟨err, rfl, _, returns⟩
  · rw [again]
    trivial
  · rw [stores]
    exact sourced_ok sourced
  · rw [concedes]
    exact sourced
  · rw [returns]
    exact .inr sourced

theorem lookup_traced {client : ClientState lru} {query : QuerySpec} {now : ℕ}
    {hit : Option DnsResponse} {exchanges : List (Exchange n)}
    (traced : ∀ cache, client.cache = some cache → CacheTraced parse exchanges cache)
    {looked : ClientState lru} (lookup : client.lookup parse query now = (hit, looked)) :
    (∀ cache, looked.cache = some cache → CacheTraced parse exchanges cache) ∧
    ∀ response, hit = some response →
      ∃ other, SameKey parse other query ∧ Replied exchanges other (.ok response) := by
  rcases lookup_cases parse client query now with ⟨same, _⟩ | ⟨cache, name, held, named, same⟩
  · cases same.symm.trans lookup
    exact ⟨traced, by simp⟩
  · rcases get_effect cache (name, query.recordType) now with ⟨found, effect⟩
    cases same.symm.trans lookup
    constructor
    · rintro _ ⟨⟩ key entry inside
      exact traced cache held key entry (looked_up_found effect inside)
    · intro response hit
      rw [found] at hit
      rcases Option.map_eq_some_iff.mp hit with ⟨entry, alive, rfl⟩
      rcases traced cache held _ entry (live_some.mp alive).1 with ⟨other, key, kind, replied⟩
      exact ⟨other, ⟨kind, name, key, named⟩, replied⟩

theorem store_traced {client stored : ClientState lru} {query : QuerySpec} {now : ℕ}
    {response : DnsResponse} {exchanges : List (Exchange n)}
    (traced : ∀ cache, client.cache = some cache → CacheTraced parse exchanges cache)
    (replied : Replied exchanges query (.ok response))
    (kept : client.store parse latest query response now = some stored) :
    ∀ cache, stored.cache = some cache → CacheTraced parse exchanges cache := by
  rcases store_cases parse latest client query response now with
    ⟨same, _⟩ | ⟨cache, name, held, named, same⟩
  · cases same.symm.trans kept
    exact traced
  · rw [same] at kept
    rcases Option.map_eq_some_iff.mp kept with ⟨inserted, insert, rfl⟩
    rcases insert_cases latest cache (name, query.recordType) response now with
      ⟨_, done⟩ | ⟨_, _, done⟩ | ⟨_, _, _, done⟩
    · cases done.symm.trans insert
      rintro _ ⟨⟩
      exact traced cache held
    · cases done.symm.trans insert
    · cases done.symm.trans insert
      rintro _ ⟨⟩ key entry found
      rw [lru.recency_put] at found
      have inside := Recency.lookup_truncate found
      by_cases here : key = (name, query.recordType)
      · subst here
        rw [AList.lookup_insert] at inside
        cases inside
        exact ⟨query, named, rfl, replied⟩
      · rw [AList.lookup_insert_ne here] at inside
        exact traced cache held key entry inside

/-- Offering a query under the next number. -/
theorem offered_traced {system : System n} (traced : FloorTraced fromAscii parse floor)
    (accepting : floor.system.dispatch.shared.closed = false)
    (submitted : systemStep fromAscii config floor.system (.submit caller.handle caller.query) =
      some system) :
    FloorTraced fromAscii parse
        { floor with system := system, client := floor.client.offer caller.query } ∧
      (floor.client.offer caller.query).offered[floor.system.dispatch.shared.opened]? =
        some caller.query ∧
      system.dispatch.shared.closed = false := by
  have next := traced.numbered accepting
  have number : (floor.client.offer caller.query).offered[floor.system.dispatch.shared.opened]? =
      some caller.query := by
    simp [ClientState.offer, next]
  rcases system_step_submit.mp submitted with ⟨_, _, _, rfl⟩
  refine ⟨⟨?_, ?_, ?_, ?_, traced.cache⟩, number, accepting⟩
  · intro _
    simp [ClientState.offer, Calls.submitted, next]
  · intro item inside
    rcases List.mem_append.mp inside with before | last
    · exact offered_grows (traced.queue item before)
    · rw [List.mem_singleton.mp last]
      exact number
  · intro phase inside
    have kept : PhaseTraced (floor.client.offered ++ [caller.query]) (floor.exchanges ++ [])
        phase := phase_grows (traced.procs phase inside)
    rwa [List.append_nil] at kept
  · intro answer inside
    rcases traced.sent answer inside with ⟨query, found, sourced⟩
    exact ⟨query, offered_grows found, sourced⟩

theorem grown_client {client : ClientState lru} {further : List QuerySpec}
    (offered : client.offered = floor.client.offered ++ further) :
    Grown floor { floor with client := client } :=
  ⟨⟨further, offered⟩, ⟨[], (List.append_nil _).symm⟩, id⟩

theorem grown_refl (floor : Floor n lru) : Grown floor floor :=
  ⟨⟨[], (List.append_nil _).symm⟩, ⟨[], (List.append_nil _).symm⟩, id⟩

theorem floor_traced_client {client : ClientState lru} {further : List QuerySpec}
    (traced : FloorTraced fromAscii parse floor)
    (offered : client.offered = floor.client.offered ++ further)
    (shut : further = [] ∨ floor.system.dispatch.shared.closed = true)
    (cache : ∀ cache, client.cache = some cache → CacheTraced parse floor.exchanges cache) :
    FloorTraced fromAscii parse { floor with client := client } := by
  refine ⟨?_, ?_, ?_, ?_, cache⟩
  · intro accepting
    rcases shut with rfl | closed
    · rw [offered, List.append_nil]
      exact traced.numbered accepting
    · exact absurd (closed.symm.trans accepting) (by decide)
  · intro item inside
    rw [offered]
    exact offered_grows (traced.queue item inside)
  · intro phase inside
    rw [offered]
    have kept : PhaseTraced (floor.client.offered ++ further) (floor.exchanges ++ []) phase :=
      phase_grows (traced.procs phase inside)
    rwa [List.append_nil] at kept
  · intro answer inside
    rcases traced.sent answer inside with ⟨query, found, sourced⟩
    refine ⟨query, ?_, sourced⟩
    rw [offered]
    exact offered_grows found

theorem moves_traced (moves : Moves fromAscii config parse latest floor caller after moved)
    (traced : FloorTraced fromAscii parse floor)
    (mine : CallerTraced fromAscii parse floor caller)
    (within : ∀ attempt, caller.progress = .offering attempt →
      attempt < attemptsFor config.maxRetries) :
    FloorTraced fromAscii parse after ∧ CallerTraced fromAscii parse after moved ∧
      Grown floor after := by
  cases moves with
  | ensured place =>
      rw [CallerTraced, place] at mine
      exact ⟨traced, mine, grown_refl floor⟩
  | hit place looked =>
      rw [CallerTraced, place] at mine
      have same : _ = floor.client.offered ++ [] :=
        (lookup_keeps looked).2.trans (List.append_nil _).symm
      rcases lookup_traced traced.cache looked with ⟨cache, known⟩
      rcases known _ rfl with ⟨query, key, replied⟩
      exact ⟨floor_traced_client traced same (.inl rfl) cache,
        .inr ⟨mine, query, key, replied⟩, grown_client same⟩
  | missed place looked =>
      have same : _ = floor.client.offered ++ [] :=
        (lookup_keeps looked).2.trans (List.append_nil _).symm
      exact ⟨floor_traced_client traced same (.inl rfl) (lookup_traced traced.cache looked).1,
        trivial, grown_client same⟩
  | exhausted place past => exact absurd (within _ place) past
  | refused place closed =>
      exact ⟨floor_traced_client traced rfl (.inr closed) traced.cache, .inl ⟨rfl, closed⟩,
        grown_client rfl⟩
  | offered place _ accepting submitted =>
      rcases offered_traced traced accepting submitted with ⟨kept, number, _⟩
      refine ⟨kept, number, ⟨[caller.query], rfl⟩, ⟨[], (List.append_nil _).symm⟩, ?_⟩
      exact fun closed => absurd (closed.symm.trans accepting) (by decide)
  | heard place sent =>
      rw [CallerTraced, place] at mine
      rcases traced.sent _ sent with ⟨query, found, sourced⟩
      cases mine.symm.trans found
      exact ⟨traced, sourced, grown_refl floor⟩
  | judged place =>
      rw [CallerTraced, place] at mine
      exact ⟨traced, judge_traced mine, grown_refl floor⟩
  | stored place kept =>
      rw [CallerTraced, place] at mine
      have same : _ = floor.client.offered ++ [] :=
        (store_keeps kept).2.trans (List.append_nil _).symm
      exact ⟨floor_traced_client traced same (.inl rfl) (store_traced traced.cache mine kept), mine,
        grown_client same⟩
  | panics => exact ⟨traced, trivial, grown_refl floor⟩
  | completes place =>
      rw [CallerTraced, place] at mine
      have same : _ = floor.client.offered ++ [] := (List.append_nil _).symm
      exact ⟨floor_traced_client traced same (.inl rfl) traced.cache, .inl mine, grown_client same⟩
  | concedes place =>
      rw [CallerTraced, place] at mine
      have same : _ = floor.client.offered ++ [] := (List.append_nil _).symm
      exact ⟨floor_traced_client traced same (.inl rfl) traced.cache, mine, grown_client same⟩
  | fails place =>
      rw [CallerTraced, place] at mine
      have same : _ = floor.client.offered ++ [] := (List.append_nil _).symm
      exact ⟨floor_traced_client traced same (.inl rfl) traced.cache, .inr mine, grown_client same⟩
  | cancels => exact ⟨traced, trivial, grown_refl floor⟩

end Callers

section Desks

variable {Name : Type} [DecidableEq Name] {lru : LruCache (Name × ℕ) CacheEntry}
variable {parse : String → Option Name} {latest : ℕ} {config : BlastDNSConfig}

theorem system_step_closed {system after : System n} {action : Action n}
    (stepped : systemStep fromAscii config system action = some after)
    (closed : system.dispatch.shared.closed = true) : after.dispatch.shared.closed = true := by
  cases action with
  | clone handle =>
      rcases Option.map_eq_some_iff.mp stepped with ⟨cell, _, rfl⟩
      exact closed
  | startInit handle =>
      simp only [systemStep] at stepped
      split at stepped <;> cases stepped
      exact closed
  | cancelInit handle =>
      simp only [systemStep] at stepped
      split at stepped <;> cases stepped
      exact closed
  | finishInit handle =>
      simp only [systemStep] at stepped
      split at stepped <;> cases stepped
      exact closed
  | submit handle query =>
      simp only [systemStep] at stepped
      split at stepped
      · simp [dispatchTo, dispatchStep, environmentStep, closed] at stepped
      · cases stepped
  | worker index label =>
      rcases Option.map_eq_some_iff.mp stepped with ⟨dispatch, acted, rfl⟩
      rcases act_some acted with ⟨_, _, _, _, moved, rfl⟩
      exact (worker_step_handles moved).2.closed.trans closed
  | around environment =>
      rcases system_step_around stepped with ⟨idle, shared, moved, rfl⟩
      cases environment_step_surrounds moved with
      | enqueues => exact absurd rfl (idle _)
      | leaves _ _ _ _ shut => exact shut closed

structure Traced (fromAscii : String → Except ProtoError Wire) (config : BlastDNSConfig)
    (parse : String → Option Name) (desk : Desk n lru) : Prop where
  floor : FloorTraced fromAscii parse desk.shared
  callers : ∀ caller ∈ desk.procs, CallerTraced fromAscii parse desk.shared caller ∧
    Follows (attemptsFor config.maxRetries) caller

theorem call_step_traced {floor after : Floor n lru} {caller moved : Caller} {label : CallLabel}
    (stepped : callStep fromAscii config parse latest floor caller label = some (after, moved))
    (traced : FloorTraced fromAscii parse floor)
    (mine : CallerTraced fromAscii parse floor caller ∧
      Follows (attemptsFor config.maxRetries) caller) :
    FloorTraced fromAscii parse after ∧
      (CallerTraced fromAscii parse after moved ∧
        Follows (attemptsFor config.maxRetries) moved) ∧
      ∀ other, CallerTraced fromAscii parse floor other ∧
          Follows (attemptsFor config.maxRetries) other →
        CallerTraced fromAscii parse after other ∧
          Follows (attemptsFor config.maxRetries) other := by
  have moves := call_step_moves stepped
  have within : ∀ attempt, caller.progress = .offering attempt →
      attempt < attemptsFor config.maxRetries := by
    intro attempt place
    have follows := mine.2
    rw [Follows, place] at follows
    exact follows.2.1
  rcases moves_traced moves traced mine.1 within with ⟨kept, mover, grown⟩
  exact ⟨kept, ⟨mover, moves_follows moves mine.2⟩,
    fun other known => ⟨caller_grows grown known.1, known.2⟩⟩

theorem desk_step_traced {desk later : Desk n lru}
    (stepped : DeskSteps fromAscii config parse latest desk later)
    (traced : Traced fromAscii config parse desk) : Traced fromAscii config parse later := by
  rcases desk_step_cases stepped with ⟨_, _, _, _, rfl⟩ | ⟨index, label, acted⟩ |
    ⟨action, system, free, moved, rfl⟩
  · refine ⟨traced.floor, ?_⟩
    intro caller member
    rcases List.mem_append.mp member with before | fresh
    · exact traced.callers caller before
    · rw [List.mem_singleton.mp fresh]
      exact ⟨rfl, rfl⟩
  · have kept := act_invariant (FloorTraced fromAscii parse)
      (fun floor caller => CallerTraced fromAscii parse floor caller ∧
        Follows (attemptsFor config.maxRetries) caller)
      (fun _ _ _ _ _ moved => call_step_traced moved) acted ⟨traced.floor, traced.callers⟩
    exact ⟨kept.1, kept.2⟩
  · refine ⟨system_floor_traced traced.floor free moved, ?_⟩
    intro caller member
    have grown : Grown desk.shared { desk.shared with
        system := system
        exchanges := desk.shared.exchanges ++ noted desk.shared.system action } :=
      ⟨⟨[], (List.append_nil _).symm⟩, ⟨_, rfl⟩, system_step_closed moved⟩
    rcases traced.callers caller member with ⟨known, follows⟩
    exact ⟨caller_grows grown known, follows⟩

variable {client : BlastDNSClient} {desk : Desk client.resolvers.length lru}

theorem new_desk_traced : Traced fromAscii client.config parse (newDesk lru client) := by
  refine ⟨⟨fun _ => rfl, by simp [newDesk, newSystem, newDispatch],
    by simp [newDesk, newSystem, newDispatch], by simp [newDesk, newSystem, newDispatch], ?_⟩,
    by simp [newDesk]⟩
  intro cache held key entry found
  have fresh : newCache lru client.config = some cache := held
  rw [newCache] at fresh
  split at fresh <;> cases fresh
  rw [SimpleCache.new, lru.recency_new] at found
  simp at found

theorem reached_traced (reached : Relation.ReflTransGen
      (DeskSteps fromAscii client.config parse latest) (newDesk lru client) desk) :
    Traced fromAscii client.config parse desk :=
  reachable_invariant (Traced fromAscii client.config parse)
    (fun _ _ kept stepped => desk_step_traced stepped kept) reached new_desk_traced

/-- In every interleaving, a response a call returns was a reply of the network to its
own query, or to one with the same cache key if it made no attempt; and an error is the
network's answer to its own query, the reason why none was sent, or the closed queue. -/
theorem results_traced_to_replies
    (reached : Relation.ReflTransGen (DeskSteps fromAscii client.config parse latest)
      (newDesk lru client) desk)
    {caller : Caller} (member : caller ∈ desk.procs) :
    (∀ response, caller.progress = .returned (.ok response) →
      ∃ exchange ∈ desk.shared.exchanges, exchange.reply.gives (.ok response) ∧
        (exchange.query = caller.query ∨
          (caller.heard = [] ∧ SameKey parse exchange.query caller.query))) ∧
    ∀ err, caller.progress = .returned (.error err) →
      (err = .queueClosed ∧ desk.shared.system.dispatch.shared.closed = true) ∨
      Refusal fromAscii caller.query err ∨
      ∃ exchange ∈ desk.shared.exchanges, exchange.query = caller.query ∧
        exchange.reply.gives (.error err) := by
  have mine := ((reached_traced reached).callers caller member).1
  constructor
  · intro response place
    rw [CallerTraced, place] at mine
    rcases mine with ⟨exchange, inside, own, gives⟩ | ⟨heard, _, key, exchange, inside, rfl, gives⟩
    · exact ⟨exchange, inside, gives, .inl own⟩
    · exact ⟨exchange, inside, gives, .inr ⟨heard, key⟩⟩
  · intro err place
    rw [CallerTraced, place] at mine
    rcases mine with closed | sourced
    · exact .inl closed
    · cases sourced with
      | replied reply => exact .inr (.inr reply)
      | refused why => exact .inr (.inl why)

/-- The second of two calls has its response from the reply to the first. -/
theorem results_traced_to_replies_cached :
    ∃ desk : Desk 1 (listed : LruCache (String × ℕ) CacheEntry), ∃ caller ∈ desk.procs,
      caller.heard.length = 0 ∧ ∃ exchange ∈ desk.shared.exchanges,
        exchange.reply.gives (.ok shortAnswer) := by
  rcases two_calls_reached with ⟨desk, reached, first, second, procs, _, _, returned, none⟩
  have member : second ∈ desk.procs := by simp [procs]
  rcases (results_traced_to_replies reached member).1 shortAnswer returned with
    ⟨exchange, inside, gives, _⟩
  exact ⟨desk, second, member, none, exchange, inside, gives⟩

end Desks

end BlastDns.Calls
