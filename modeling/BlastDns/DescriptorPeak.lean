import BlastDns.Descriptors

/-!
The descriptor bound is reached. One worker takes the pool in rotation and gets a
truncated response from every entry, so that each ends up with a TCP connection;
then every worker sends a query of its own. That makes one socket for each worker
on top of one connection for each entry, where `required_fds` counts no more
connections than workers.
-/

namespace BlastDns.Descriptors

open Accounting Client Config Crew GlobalCap Health NetText Politeness Runs Transport Worker

variable {n : ℕ} {Name : Type} {fromAscii : String → Except ProtoError Name}
variable {config : BlastDNSConfig}

section Solo

/-- One worker's place and the shared state, the rest as it was. -/
def seated (sockets : Sockets n) (index : ℕ) (shared : Shared n) (phase : Phase n) : Sockets n :=
  { sockets with
    system := { sockets.system with
      dispatch := {
        shared := shared
        procs := sockets.system.dispatch.procs.set index phase } } }

variable {sockets : Sockets n} {index : ℕ} {shared after : Shared n} {phase moved : Phase n}

theorem heard_proceed (phase : Phase n) : heard sockets phase .proceed = true := by
  unfold heard
  split <;> simp_all

theorem seated_any (kind : Phase n → Bool) (here : kind phase = true)
    (inside : index < sockets.system.dispatch.procs.length) :
    (seated sockets index shared phase).system.dispatch.procs.any kind = true :=
  List.any_eq_true.mpr ⟨phase, List.mem_set inside phase, here⟩

theorem worker_moves (sockets : Sockets n) (label : Label)
    (inside : index < sockets.system.dispatch.procs.length)
    (audible : heard sockets phase label = true)
    (stepped : workerStep fromAscii shared phase label = some (after, moved)) :
    SocketSteps fromAscii config (seated sockets index shared phase)
      (seated sockets index after moved) := by
  refine ⟨.worker index label, ?_⟩
  have found : (seated sockets index shared phase).system.dispatch.procs[index]? = some phase := by
    simp [seated, inside]
  have acted : act (workerStep fromAscii) (seated sockets index shared phase).system.dispatch index
      label = some _ := act_of_step found stepped
  have same : heard (seated sockets index shared phase) phase label = true := audible
  simp only [socketStep, found, same, if_true, systemTo, systemStep, dispatchTo, dispatchStep,
    acted]
  simp [seated]

def Proceeds (fromAscii : String → Except ProtoError Name) (before after : Shared n × Phase n) :
    Prop :=
  workerStep fromAscii before.1 before.2 .proceed = some after

theorem worker_proceeds (inside : index < sockets.system.dispatch.procs.length)
    (chain : Relation.ReflTransGen (Proceeds fromAscii) (shared, phase) (after, moved)) :
    Relation.ReflTransGen (SocketSteps fromAscii config) (seated sockets index shared phase)
      (seated sockets index after moved) := by
  apply chain.lift (fun place => seated sockets index place.1 place.2)
  intro before later proceeded
  exact worker_moves sockets .proceed inside (heard_proceed _) proceeded

end Solo

section Lookup

variable {shared : Shared n} {item : WorkItem} {rest : List WorkItem} {i : Fin n}
variable {health : ResolverHealth} {name : Name}

theorem set_resolver_self (shared : Shared n) (i : Fin n) :
    shared.setResolver i (shared.pool i) = shared := by
  simp [Shared.setResolver]

structure Fit (nowNs : ℕ) (health : ResolverHealth) : Prop where
  active : health.active = true
  free : health.isBenched nowNs = false
  permit : 0 < health.inflight

theorem fit_acquires {nowNs : ℕ} (fit : Fit nowNs health) :
    health.tryAcquire = some { health with inflight := health.inflight - 1 } :=
  if_neg fit.permit.ne'

/-- After its pass has picked an entry a worker takes a permit, passes both paces and
sends. -/
theorem holds_and_sends (shared : Shared n) (item : WorkItem) (scan : Scan n)
    (fit : Fit shared.nowNs (shared.pool i)) :
    Relation.ReflTransGen (Proceeds fromAscii) (shared, .working item (.checking scan i))
      (shared.setResolver i
          { shared.pool i with inflight := (shared.pool i).inflight - 1 }.recordDispatch,
        .working item (.holding i (.querying shared.nowNs))) := by
  let taken := shared.setResolver i { shared.pool i with inflight := (shared.pool i).inflight - 1 }
  have checked : Proceeds fromAscii (shared, .working item (.checking scan i))
      (shared, .working item (.trying scan i)) := by
    simp [Proceeds, workerStep, stageStep, fit.free]
  have acquired : Proceeds fromAscii (shared, .working item (.trying scan i))
      (taken, .working item (.holding i .reserved)) := by
    simp [Proceeds, workerStep, stageStep, fit_acquires fit, taken]
  have rated : Proceeds fromAscii (taken, .working item (.holding i .reserved))
      (taken, .working item (.holding i .rated)) := by
    simp [Proceeds, workerStep, holdStep, set_resolver_self]
  have paced : Proceeds fromAscii (taken, .working item (.holding i .rated))
      (taken, .working item (.holding i .ready)) := by
    simp [Proceeds, workerStep, holdStep, set_resolver_self]
  have sent : Proceeds fromAscii (taken, .working item (.holding i .ready))
      (shared.setResolver i
          { shared.pool i with inflight := (shared.pool i).inflight - 1 }.recordDispatch,
        .working item (.holding i (.querying shared.nowNs))) := by
    simp [Proceeds, workerStep, holdStep, taken, set_resolver_twice]
    rfl
  exact .head checked (.head acquired (.head rated (.head paced (.single sent))))

theorem takes_turn (queued : shared.queue = item :: rest)
    (named : fromAscii item.query.host = .ok name)
    (turn : shared.cursor % 2 ^ 64 % n = i) (active : (shared.pool i).active = true) :
    Relation.ReflTransGen (Proceeds fromAscii) (shared, .idle)
      ({ shared with queue := rest, cursor := (shared.cursor + 1) % 2 ^ 64 },
        .working item (.checking { offset := shared.cursor, active := 1 } i)) := by
  let left : Shared n := { shared with queue := rest }
  let passed : Shared n := { shared with queue := rest, cursor := (shared.cursor + 1) % 2 ^ 64 }
  have positive : 0 < n := i.pos
  have received : Proceeds fromAscii (shared, .idle) (left, .working item .received) := by
    simp [Proceeds, workerStep, queued, left]
  have valid : Proceeds fromAscii (left, .working item .received)
      (left, .working item .pacing) := by
    simp [Proceeds, workerStep, stageStep, named]
  have paced : Proceeds fromAscii (left, .working item .pacing) (left, .working item .reserving) :=
    rfl
  have turned : Proceeds fromAscii (left, .working item .reserving)
      (passed, .working item (.visiting { offset := shared.cursor })) := by
    simp [Proceeds, workerStep, stageStep, positive.ne', left, passed]
  have picked : Shared.selected ({ offset := shared.cursor } : Scan n) positive = i :=
    Fin.ext turn
  have visited : Proceeds fromAscii (passed, .working item (.visiting { offset := shared.cursor }))
      (passed, .working item (.checking { offset := shared.cursor, active := 1 } i)) := by
    simp [Proceeds, workerStep, stageStep, positive, picked, active, passed]
  exact .head received (.head valid (.head paced (.head turned (.single visited))))

structure Quiet (cursor : ℕ) (sockets : Sockets n) : Prop where
  handles : sockets.system.handles = [.set]
  queue : sockets.system.dispatch.shared.queue = []
  accepting : sockets.system.dispatch.shared.closed = false
  room : 0 < sockets.system.dispatch.shared.queueCapacity
  cursor : sockets.system.dispatch.shared.cursor = cursor

def sentTo (shared : Shared n) (i : Fin n) : Shared n :=
  let passed : Shared n :=
    { shared with
      queue := []
      cursor := (shared.cursor + 1) % 2 ^ 64
      opened := shared.opened + 1 }
  passed.setResolver i
    { shared.pool i with inflight := (shared.pool i).inflight - 1 }.recordDispatch

variable {sockets : Sockets n} {index cursor : ℕ}

theorem lookup_sent (quiet : Quiet cursor sockets) (query : QuerySpec)
    (named : fromAscii query.host = .ok name) (turn : cursor % 2 ^ 64 % n = i)
    (fit : Fit sockets.system.dispatch.shared.nowNs (sockets.system.dispatch.shared.pool i))
    (idle : sockets.system.dispatch.procs[index]? = some .idle) :
    Relation.ReflTransGen (SocketSteps fromAscii config) sockets
      (seated sockets index (sentTo sockets.system.dispatch.shared i)
        (.working ⟨query, sockets.system.dispatch.shared.opened⟩
          (.holding i (.querying sockets.system.dispatch.shared.nowNs)))) := by
  let shared := sockets.system.dispatch.shared
  let item : WorkItem := ⟨query, shared.opened⟩
  let queued : Shared n := { shared with queue := [item], opened := shared.opened + 1 }
  rcases List.getElem?_eq_some_iff.mp idle with ⟨inside, here⟩
  have submitted : SocketSteps fromAscii config sockets (seated sockets index queued .idle) := by
    refine ⟨.submit query, ?_⟩
    simp [socketStep, systemTo, systemStep, dispatchTo, dispatchStep, environmentStep,
      quiet.handles, quiet.accepting, quiet.queue, quiet.room.ne', seated, ← here, queued, item,
      shared]
  have turned : queued.cursor % 2 ^ 64 % n = i := by
    simpa [queued, shared, quiet.cursor] using turn
  have taken : Relation.ReflTransGen (Proceeds fromAscii) (queued, .idle) _ :=
    takes_turn rfl named turned fit.active
  apply Relation.ReflTransGen.head submitted
  apply worker_proceeds inside (taken.trans _)
  exact holds_and_sends { queued with queue := [], cursor := (queued.cursor + 1) % 2 ^ 64 } item
    { offset := queued.cursor, active := 1 } fit

def cutShort : DnsResponse := ⟨0, true, []⟩

def whole : DnsResponse := ⟨0, false, []⟩

def finishedAt (shared : Shared n) (item : WorkItem) (i : Fin n) (startedNs : ℕ) : Shared n :=
  let answered := recordAnswer (shared.pool i).recordTruncated shared.nowNs startedNs whole
  (shared.respond item (.ok whole)).setResolver i answered.release

theorem refetch_finishes (shared : Shared n) (item : WorkItem) (i : Fin n) (startedNs : ℕ) :
    Relation.ReflTransGen (Proceeds fromAscii)
      (shared.setResolver i (shared.pool i).recordTruncated,
        .working item (.holding i (.completed startedNs whole)))
      (finishedAt shared item i startedNs, .idle) := by
  let answered := recordAnswer (shared.pool i).recordTruncated shared.nowNs startedNs whole
  have recorded : Proceeds fromAscii
      (shared.setResolver i (shared.pool i).recordTruncated,
        .working item (.holding i (.completed startedNs whole)))
      (shared.setResolver i answered, .working item (.holding i (.recorded (.ok whole)))) := by
    simp [Proceeds, workerStep, holdStep, set_resolver_twice, answered]
    rfl
  have responded : Proceeds fromAscii
      (shared.setResolver i answered, .working item (.holding i (.recorded (.ok whole))))
      ((shared.setResolver i answered).respond item (.ok whole), .releasing i) := by
    simp [Proceeds, workerStep, holdStep, set_resolver_twice]
  have released : Proceeds fromAscii
      ((shared.setResolver i answered).respond item (.ok whole), .releasing i)
      (finishedAt shared item i startedNs, .idle) := by
    simp [Proceeds, workerStep, finishedAt, Shared.setResolver, Shared.respond, answered]
  exact .head recorded (.head responded (.single released))

/-- A query in flight is answered with TC and refetched over a new connection. -/
theorem lookup_finished {shared : Shared n} {startedNs : ℕ}
    (inside : index < sockets.system.dispatch.procs.length) (unconnected : sockets.tcp i = .empty) :
    Relation.ReflTransGen (SocketSteps fromAscii config)
      (seated sockets index shared (.working item (.holding i (.querying startedNs))))
      (seated { sockets with
          built := Function.update sockets.built i true
          tcp := Function.update sockets.tcp i .live } index
        (finishedAt shared item i startedNs) .idle) := by
  let reached : Sockets n := { sockets with built := Function.update sockets.built i true }
  let connected : Sockets n := { reached with tcp := Function.update sockets.tcp i .live }
  let counts : Shared n := shared.setResolver i (shared.pool i).recordTruncated
  let querying : Phase n := .working item (.holding i (.querying startedNs))
  let arrived : Phase n := .working item (.holding i (.arrived startedNs (.ok cutShort)))
  let refetching : Phase n := .working item (.holding i (.refetching startedNs cutShort))
  let completed : Phase n := .working item (.holding i (.completed startedNs whole))
  have connects : SocketSteps fromAscii config (seated sockets index shared querying)
      (seated reached index shared querying) := by
    have asking : (seated sockets index shared querying).system.dispatch.procs.any (asks i) =
        true := seated_any (asks i) (by simp [asks, querying]) inside
    exact ⟨.connect i, by simp only [socketStep, asking]; rfl⟩
  have answered : SocketSteps fromAscii config (seated reached index shared querying)
      (seated reached index shared arrived) := by
    apply worker_moves reached (.answer (.ok cutShort)) inside
    · simp [heard, reached, querying]
    · simp [workerStep, holdStep, set_resolver_self, querying, arrived]
  have counted : SocketSteps fromAscii config (seated reached index shared arrived)
      (seated reached index counts refetching) := by
    apply worker_moves reached .proceed inside (heard_proceed _)
    simp [workerStep, holdStep, cutShort, counts, arrived, refetching]
  have connectsTcp : SocketSteps fromAscii config (seated reached index counts refetching)
      (seated connected index counts refetching) := by
    have asking : (seated reached index counts refetching).system.dispatch.procs.any (refetches i) =
        true := seated_any (refetches i) (by simp [refetches, refetching]) inside
    have empty : (seated reached index counts refetching).tcp i = .empty := unconnected
    exact ⟨.connectTcp i, by simp only [socketStep, asking, empty]; rfl⟩
  have refetched : SocketSteps fromAscii config (seated connected index counts refetching)
      (seated connected index counts completed) := by
    apply worker_moves connected (.refetched (some whole)) inside
    · simp [heard, connected, refetching]
    · simp [workerStep, holdStep, set_resolver_self, refetching, completed]
  exact .head connects (.head answered (.head counted (.head connectsTcp (.head refetched
    (worker_proceeds inside (refetch_finishes shared item i startedNs))))))

def afterRefetch (sockets : Sockets n) (index : ℕ) (query : QuerySpec) (i : Fin n) : Sockets n :=
  let shared := sockets.system.dispatch.shared
  seated { sockets with
      built := Function.update sockets.built i true
      tcp := Function.update sockets.tcp i .live } index
    (finishedAt (sentTo shared i) ⟨query, shared.opened⟩ i shared.nowNs) .idle

theorem lookup_refetched (quiet : Quiet cursor sockets) (query : QuerySpec)
    (named : fromAscii query.host = .ok name) (turn : cursor % 2 ^ 64 % n = i)
    (fit : Fit sockets.system.dispatch.shared.nowNs (sockets.system.dispatch.shared.pool i))
    (idle : sockets.system.dispatch.procs[index]? = some .idle)
    (unconnected : sockets.tcp i = .empty) :
    Relation.ReflTransGen (SocketSteps fromAscii config) sockets
      (afterRefetch sockets index query i) := by
  rcases List.getElem?_eq_some_iff.mp idle with ⟨inside, _⟩
  exact (lookup_sent quiet query named turn fit idle).trans (lookup_finished inside unconnected)

end Lookup

section Rotation

variable {sockets : Sockets n} {workers done : ℕ} {host : String} {name : Name}

theorem record_answer_standing (health : ResolverHealth) (nowNs startedNs : ℕ)
    (response : DnsResponse) :
    (recordAnswer health nowNs startedNs response).active = health.active ∧
      (recordAnswer health nowNs startedNs response).benchedUntilNs = health.benchedUntilNs := by
  unfold recordAnswer ResolverHealth.recordResponse ResolverHealth.recordRtt
  cases response.answers.isEmpty <;> simp only <;> split_ifs <;> exact ⟨rfl, rfl⟩

theorem sent_other (shared : Shared n) {i j : Fin n} (other : j ≠ i) :
    (sentTo shared i).pool j = shared.pool j :=
  set_resolver_other _ other _

theorem finished_other (shared : Shared n) (item : WorkItem) {i j : Fin n} (startedNs : ℕ)
    (other : j ≠ i) : (finishedAt shared item i startedNs).pool j = shared.pool j :=
  set_resolver_other _ other _

theorem finished_fit (shared : Shared n) (item : WorkItem) {i : Fin n}
    (fit : Fit shared.nowNs (shared.pool i)) :
    Fit shared.nowNs ((finishedAt (sentTo shared i) item i shared.nowNs).pool i) := by
  have sent : (sentTo shared i).pool i =
      { shared.pool i with inflight := (shared.pool i).inflight - 1 }.recordDispatch :=
    set_resolver_same _ _ _
  rcases record_answer_standing ((sentTo shared i).pool i).recordTruncated shared.nowNs shared.nowNs
    whole with ⟨sameActive, sameBench⟩
  have finished : (finishedAt (sentTo shared i) item i shared.nowNs).pool i =
      (recordAnswer ((sentTo shared i).pool i).recordTruncated shared.nowNs shared.nowNs
        whole).release := set_resolver_same _ _ _
  rw [finished]
  constructor
  · rw [ResolverHealth.release, sameActive, sent]
    exact fit.active
  · rw [ResolverHealth.isBenched, ResolverHealth.release, sameBench, sent]
    exact fit.free
  · exact Nat.succ_pos _

/-- The first entries have been truncated once each, every worker is back. -/
structure Rotated (workers done : ℕ) (sockets : Sockets n) : Prop where
  quiet : Quiet done sockets
  idle : sockets.system.dispatch.procs = List.replicate workers .idle
  fit : ∀ i, Fit sockets.system.dispatch.shared.nowNs (sockets.system.dispatch.shared.pool i)
  connected : ∀ i : Fin n, i.val < done → sockets.tcp i = .live ∧ sockets.built i = true
  unconnected : ∀ i : Fin n, done ≤ i.val → sockets.tcp i = .empty

theorem rotates (named : fromAscii host = .ok name) (addressable : n < 2 ^ 63)
    (staff : 0 < workers) (before : done < n) (rotated : Rotated workers done sockets) :
    ∃ next, Relation.ReflTransGen (SocketSteps fromAscii config) sockets next ∧
      Rotated workers (done + 1) next := by
  let i : Fin n := ⟨done, before⟩
  have small : done + 1 < 2 ^ 64 := by omega
  have turn : done % 2 ^ 64 % n = i := by
    rw [Nat.mod_eq_of_lt (Nat.lt_of_succ_lt small), Nat.mod_eq_of_lt before]
  have first : sockets.system.dispatch.procs[0]? = some .idle := by
    simp [rotated.idle, staff]
  refine ⟨afterRefetch sockets 0 ⟨host, 1⟩ i, ?_, ?_⟩
  · exact lookup_refetched rotated.quiet ⟨host, 1⟩ named turn (rotated.fit i) first
      (rotated.unconnected i le_rfl)
  constructor
  · constructor
    · exact rotated.quiet.handles
    · rfl
    · exact rotated.quiet.accepting
    · exact rotated.quiet.room
    · have moved : (sockets.system.dispatch.shared.cursor + 1) % 2 ^ 64 = done + 1 := by
        rw [rotated.quiet.cursor, Nat.mod_eq_of_lt small]
      exact moved
  · simp [afterRefetch, seated, rotated.idle]
  · intro j
    by_cases here : j = i
    · rw [here]
      exact finished_fit _ _ (rotated.fit i)
    · have kept := rotated.fit j
      rw [← sent_other _ here, ← finished_other _ _ _ here] at kept
      exact kept
  · intro j passed
    by_cases here : j = i
    · simp [afterRefetch, seated, here]
    · have earlier : j.val < done := by
        have := Fin.val_ne_of_ne here
        simp only [i] at this
        omega
      simpa [afterRefetch, seated, here] using rotated.connected j earlier
  · intro j ahead
    have other : j ≠ i := by
      intro here
      simp only [here, i] at ahead
      omega
    simpa [afterRefetch, seated, other] using rotated.unconnected j (Nat.le_of_succ_le ahead)

/-- Every entry has its connection, and the first workers have a query in flight. -/
structure Sending (workers done : ℕ) (sockets : Sockets n) : Prop where
  quiet : Quiet (n + done) sockets
  size : sockets.system.dispatch.procs.length = workers
  flying : ∀ index, index < done → ∃ phase i,
    sockets.system.dispatch.procs[index]? = some phase ∧ isInFlight i phase = true
  idle : ∀ index, done ≤ index → index < workers →
    sockets.system.dispatch.procs[index]? = some .idle
  fit : ∀ i : Fin n, done ≤ i.val →
    Fit sockets.system.dispatch.shared.nowNs (sockets.system.dispatch.shared.pool i)
  connected : ∀ i, sockets.tcp i = .live ∧ sockets.built i = true

theorem rotated_sending (rotated : Rotated workers n sockets) : Sending workers 0 sockets where
  quiet := rotated.quiet
  size := by simp [rotated.idle]
  flying := by simp
  idle index _ inside := by simp [rotated.idle, inside]
  fit i _ := rotated.fit i
  connected i := rotated.connected i i.isLt

theorem sends (named : fromAscii host = .ok name) (addressable : n < 2 ^ 63)
    (few : workers ≤ n) (before : done < workers) (sending : Sending workers done sockets) :
    ∃ next, Relation.ReflTransGen (SocketSteps fromAscii config) sockets next ∧
      Sending workers (done + 1) next := by
  let i : Fin n := ⟨done, before.trans_le few⟩
  have small : n + done + 1 < 2 ^ 64 := by omega
  have turn : (n + done) % 2 ^ 64 % n = i := by
    rw [Nat.mod_eq_of_lt (Nat.lt_of_succ_lt small), Nat.add_mod_left, Nat.mod_eq_of_lt i.isLt]
  have inside : done < sockets.system.dispatch.procs.length := by rw [sending.size]; exact before
  refine ⟨_, lookup_sent sending.quiet ⟨host, 1⟩ named turn (sending.fit i le_rfl)
    (sending.idle done le_rfl before), ?_⟩
  constructor
  · constructor
    · exact sending.quiet.handles
    · rfl
    · exact sending.quiet.accepting
    · exact sending.quiet.room
    · have moved : (sockets.system.dispatch.shared.cursor + 1) % 2 ^ 64 = n + (done + 1) := by
        rw [sending.quiet.cursor, Nat.mod_eq_of_lt small, Nat.add_assoc]
      exact moved
  · simp [seated, sending.size]
  · intro index earlier
    by_cases here : index = done
    · subst here
      exact ⟨_, i, List.getElem?_set_self inside, by simp [isInFlight, holdInFlight]⟩
    · rcases sending.flying index (by omega) with ⟨phase, j, found, flying⟩
      refine ⟨phase, j, ?_, flying⟩
      rw [← found]
      exact List.getElem?_set_ne (Ne.symm here)
  · intro index later there
    rw [← sending.idle index (Nat.le_of_succ_le later) there]
    exact List.getElem?_set_ne (by omega)
  · intro j later
    have other : j ≠ i := by
      intro here
      simp only [here, i] at later
      omega
    have kept := sending.fit j (Nat.le_of_succ_le later)
    rw [← sent_other _ other] at kept
    exact kept
  · exact sending.connected

end Rotation

section Start

theorem probes_pass (fromAscii : String → Except ProtoError Name) (config : BlastDNSConfig)
    (sockets : Sockets n) (none : sockets.probing = []) :
    ∃ built, Relation.ReflTransGen (SocketSteps fromAscii config) sockets
      { sockets with unprobed := [], built := built } := by
  induction waiting : sockets.unprobed generalizing sockets with
  | nil =>
      refine ⟨sockets.built, ?_⟩
      rw [← waiting]
  | cons i rest ih =>
      let asked : Sockets n := { sockets with unprobed := rest, probing := [i] }
      let connected : Sockets n := { asked with built := Function.update sockets.built i true }
      let answered : Sockets n := { connected with probing := [] }
      have probes : SocketSteps fromAscii config sockets asked :=
        ⟨.probe, by simp [socketStep, waiting, none, asked]⟩
      have connects : SocketSteps fromAscii config asked connected :=
        ⟨.connect i, by simp [socketStep, asked, connected]⟩
      have answers : SocketSteps fromAscii config connected answered :=
        ⟨.probed i true, by simp [socketStep, asked, connected, answered]⟩
      rcases ih answered rfl rfl with ⟨built, passed⟩
      have same : { answered with unprobed := [], built := built } =
          { sockets with unprobed := [], built := built } := by
        simp [answered, connected, asked, none]
      rw [same] at passed
      exact ⟨built, .head probes (.head connects (.head answers passed))⟩

theorem starts (fromAscii : String → Except ProtoError Name) (client : BlastDNSClient)
    (room : 0 < client.queueCapacity) :
    ∃ started, Relation.ReflTransGen (SocketSteps fromAscii client.config) (newSockets client)
        started ∧ Rotated (max client.config.maxConcurrency 1) 0 started := by
  let initialising : Sockets client.resolvers.length :=
    { newSockets client with
      unprobed := if client.config.resolverProbe then List.finRange client.resolvers.length else []
      system := { newSystem client with handles := [.initialising] } }
  have begins : SocketSteps fromAscii client.config (newSockets client) initialising :=
    ⟨.startInit, rfl⟩
  rcases probes_pass fromAscii client.config initialising rfl with ⟨built, probed⟩
  have finishes : SocketSteps fromAscii client.config
      { initialising with unprobed := [], built := built }
      { initialising with
        unprobed := []
        built := built
        system := spawnAll client.config { newSystem client with handles := [.set] } } :=
    ⟨.finishInit, rfl⟩
  refine ⟨_, .head begins (probed.tail finishes), ?_⟩
  constructor
  · exact ⟨rfl, rfl, rfl, room, rfl⟩
  · rfl
  · intro i
    exact ⟨rfl, rfl, Nat.lt_of_lt_of_le Nat.zero_lt_one (le_max_right _ _)⟩
  · intro i earlier
    cases earlier
  · intro i _
    rfl

end Start

section Peak

variable {client : BlastDNSClient} {text : String} {name : Name}

theorem sending_open {workers : ℕ} {sockets : Sockets n}
    (sending : Sending workers workers sockets) :
    (if config.persistentSocket then n else workers) + n ≤ openSockets config sockets := by
  have live : (Finset.univ.filter fun i => sockets.tcp i = .live).card = n := by
    rw [Finset.filter_true_of_mem fun i _ => (sending.connected i).1, Finset.card_fin]
  have built : (Finset.univ.filter fun i => sockets.built i = true).card = n := by
    rw [Finset.filter_true_of_mem fun i _ => (sending.connected i).2, Finset.card_fin]
  have flying : workers ≤ ∑ i, inFlight sockets.system.dispatch i := by
    rw [← sending.size]
    apply length_le_headcount_sum
    intro phase member
    rcases List.mem_iff_getElem?.mp member with ⟨index, found⟩
    rcases List.getElem?_eq_some_iff.mp found with ⟨inside, _⟩
    rcases sending.flying index (sending.size ▸ inside) with ⟨same, i, there, flies⟩
    rw [found] at there
    cases there
    exact ⟨i, flies⟩
  rw [openSockets, live, built]
  split <;> omega

/-- With no more workers than entries, the most that can be open is reached. -/
theorem peak_reached (named : fromAscii text = .ok name) (room : 0 < client.queueCapacity)
    (addressable : client.resolvers.length < 2 ^ 63)
    (few : max client.config.maxConcurrency 1 ≤ client.resolvers.length) :
    ∃ sockets, Relation.ReflTransGen (SocketSteps fromAscii client.config) (newSockets client)
        sockets ∧
      (if client.config.persistentSocket then client.resolvers.length
          else max client.config.maxConcurrency 1) + client.resolvers.length ≤
        openSockets client.config sockets := by
  have staff : 0 < max client.config.maxConcurrency 1 := by simp
  rcases starts fromAscii client room with ⟨started, toStart, ready⟩
  rcases stages_reached (SocketSteps fromAscii client.config)
    (Rotated (max client.config.maxConcurrency 1)) client.resolvers.length
    (fun _ before _ rotated => rotates named addressable staff before rotated) ready with
    ⟨turned, round, rotated⟩
  rcases stages_reached (SocketSteps fromAscii client.config)
    (Sending (max client.config.maxConcurrency 1)) (max client.config.maxConcurrency 1)
    (fun _ before _ sending => sends named addressable few before sending)
    (rotated_sending rotated) with ⟨sent, flight, sending⟩
  exact ⟨sent, (toStart.trans round).trans flight, sending_open sending⟩

theorem with_config_resolvers {host : Host} {texts : List String} {config : BlastDNSConfig}
    (accepted : withConfig host texts config = some (.ok client)) :
    0 < client.resolvers.length := by
  rcases with_config_ok accepted with ⟨used, chosen, parsed, _, _⟩
  have same : used.length = client.resolvers.length := by
    simpa using congrArg List.length (parsed_all parsed)
  rw [← same, List.length_pos_iff]
  rintro rfl
  rw [resolverTexts] at chosen
  split at chosen
  · rw [getSystemResolvers] at chosen
    split at chosen
    · cases chosen
    · split at chosen
      · cases chosen
      · rename_i nonempty
        simp only [Except.map, Except.ok.injEq, List.map_eq_nil_iff] at chosen
        simp [chosen] at nonempty
  · cases chosen
    contradiction

/-- What `required_fds` sets aside for sockets covers every run. -/
def Sufficient (fromAscii : String → Except ProtoError Name) (client : BlastDNSClient)
    (concurrency : ℕ) : Prop :=
  ∀ sockets, Relation.ReflTransGen (SocketSteps fromAscii client.config) (newSockets client)
      sockets →
    openSockets client.config sockets ≤
      requiredFds concurrency client.resolvers.length client.config.persistentSocket - 100

theorem sufficient_iff (named : fromAscii text = .ok name) (resolvers : 0 < client.resolvers.length)
    (room : 0 < client.queueCapacity) (addressable : client.resolvers.length < 2 ^ 63)
    {concurrency : ℕ} (spawned : max concurrency 1 = max client.config.maxConcurrency 1) :
    Sufficient fromAscii client concurrency ↔ client.resolvers.length ≤ concurrency := by
  constructor
  · intro sufficient
    by_contra more
    have few : max client.config.maxConcurrency 1 ≤ client.resolvers.length := by omega
    rcases peak_reached named room addressable few with ⟨sockets, reached, peak⟩
    have bound := sufficient sockets reached
    rw [requiredFds] at bound
    split_ifs at bound peak <;> omega
  · intro enough sockets reached
    have most := open_sockets_le reached
    rw [requiredFds]
    split_ifs at most ⊢ <;> omega

/-- The descriptor check covers every run of a client without clones exactly when there
are no more resolvers than workers, whether the workers are counted as configured
or as spawned. -/
theorem descriptors_suffice_iff (fromAscii : String → Except ProtoError Name) {host : Host}
    {texts : List String} {config : BlastDNSConfig}
    (accepted : withConfig host texts config = some (.ok client))
    (named : fromAscii text = .ok name) (addressable : client.resolvers.length < 2 ^ 63) :
    (Sufficient fromAscii client config.maxConcurrency ↔
      client.resolvers.length ≤ config.maxConcurrency) ∧
    (Sufficient fromAscii client (max config.maxConcurrency 1) ↔
      client.resolvers.length ≤ max config.maxConcurrency 1) := by
  rcases with_config_ok accepted with ⟨_, _, _, sameConfig, capacity⟩
  have resolvers := with_config_resolvers accepted
  have room : 0 < client.queueCapacity := by
    rw [capacity]
    exact Nat.lt_of_lt_of_le Nat.zero_lt_one (le_max_right _ _)
  constructor
  · exact sufficient_iff named resolvers room addressable (by rw [sameConfig])
  · exact sufficient_iff named resolvers room addressable (by rw [sameConfig]; simp)

def narrowPair : BlastDNSClient :=
  plainClient narrowConfig [sameAddress, .v4 ⟨8, 8, 8, 8⟩ 53]

theorem narrow_pair_accepted :
    withConfig plainHost ["1.1.1.1", "8.8.8.8"] narrowConfig = some (.ok narrowPair) := by
  have second : Resolvers.parseResolver "8.8.8.8" = .ok (.v4 ⟨8, 8, 8, 8⟩ 53) := by
    decide
  apply plain_client_accepted rfl _ rfl rfl
  rw [List.mapM_cons, bare_text, List.mapM_cons, second]
  rfl

theorem descriptors_suffice_iff_one : Sufficient anyName narrowClient 1 := by
  have accepted : withConfig plainHost ["1.1.1.1"] narrowConfig = some (.ok narrowClient) :=
    plain_client_accepted rfl bare_texts rfl rfl
  have named : anyName "a.example" = .ok () := rfl
  exact (descriptors_suffice_iff anyName accepted named (by decide)).1.mpr le_rfl

def refetchMoves (i : Fin 2) : List (Move 2) :=
  .submit ⟨"a.example", 1⟩ :: List.replicate 10 (.worker 0 .proceed) ++
    [.connect i, .worker 0 (.answer (.ok cutShort)), .worker 0 .proceed, .connectTcp i,
      .worker 0 (.refetched (some whole)), .worker 0 .proceed, .worker 0 .proceed,
      .worker 0 .proceed]

/-- Two resolvers that have each truncated once, and one more query: three sockets
where two were set aside. -/
theorem connections_outnumber_workers :
    withConfig plainHost ["1.1.1.1", "8.8.8.8"] narrowConfig = some (.ok narrowPair) ∧
    requiredFds narrowConfig.maxConcurrency 2 narrowConfig.persistentSocket - 100 = 2 ∧
    ∃ sockets, Relation.ReflTransGen (SocketSteps anyName narrowConfig)
        (newSockets narrowPair) sockets ∧
      openSockets narrowConfig sockets = 3 := by
  refine ⟨narrow_pair_accepted, rfl, ?_⟩
  let moves : List (Move 2) :=
    [.startInit, .finishInit] ++ refetchMoves 0 ++ refetchMoves 1 ++
      .submit ⟨"b.example", 1⟩ :: List.replicate 10 (.worker 0 .proceed)
  have done : (moves.foldlM (socketStep anyName narrowConfig)
      (newSockets narrowPair)).map (openSockets narrowConfig) = some 3 := by
    decide
  rcases Option.map_eq_some_iff.mp done with ⟨sockets, replayed, count⟩
  exact ⟨sockets, replay_reaches replayed, count⟩

end Peak

end BlastDns.Descriptors
