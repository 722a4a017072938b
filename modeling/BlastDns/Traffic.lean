import BlastDns.CallRuns
import BlastDns.Handling

/-!
What calls may put on the wire. A call offers at most as many items as it has attempts, and
none if the cache answers it; a worker sends at most one query for an item, whichever
resolvers it tries for or gives up on the way; and it asks again over TCP at most once for
each query that came back. So however calls, workers and clones are interleaved, the
traffic about a name is bounded by the calls made for it, and the resolvers' own counters
count it exactly.
-/

namespace BlastDns.Traffic

open Accounting Cache Calls Client Config Controller Crew GlobalCap Handling Health Lru NetText
open Politeness Resolve RetryLoop Runs Worker

variable {n : ℕ}

section Counts

inductive Transport where
  | udp
  | tcp
  deriving DecidableEq

/-- A query that was put on the wire, or a refetch that was begun. -/
structure Sent (n : ℕ) where
  query : QuerySpec
  resolver : Fin n
  transport : Transport

/-- What a worker puts on the wire by a step to this phase. -/
def begun : Phase n → List (Sent n)
  | .working item (.holding i (.querying _)) => [⟨item.query, i, .udp⟩]
  | .working item (.holding i (.refetching _ _)) => [⟨item.query, i, .tcp⟩]
  | _ => []

def sentAbout (about : QuerySpec → Bool) (transport : Transport) (sent : List (Sent n)) : ℕ :=
  sent.countP fun one => about one.query && decide (one.transport = transport)

def sentTo (i : Fin n) (transport : Transport) (sent : List (Sent n)) : ℕ :=
  sent.countP fun one => decide (one.resolver = i) && decide (one.transport = transport)

def beforeSend : Hold → Bool
  | .granted | .confirming | .reserved | .rated | .ready => true
  | .querying _ | .arrived _ _ | .refetching _ _ | .completed _ _ | .recorded _ => false

/-- An item about these names is in hand, and its query is not sent yet. -/
def unsent (about : QuerySpec → Bool) : Phase n → Bool
  | .working item (.holding _ hold) => about item.query && beforeSend hold
  | .working item _ => about item.query
  | .idle | .stopped | .releasing _ => false

def onWire (about : QuerySpec → Bool) : Phase n → Bool
  | .working item (.holding _ (.querying _)) => about item.query
  | _ => false

/-- The query is sent, and may yet be asked again over TCP. -/
def refetchable (about : QuerySpec → Bool) : Phase n → Bool
  | .working item (.holding _ (.querying _)) => about item.query
  | .working item (.holding _ (.arrived _ _)) => about item.query
  | _ => false

def queued (about : QuerySpec → Bool) (shared : Shared n) : ℕ :=
  shared.queue.countP fun item => about item.query

end Counts

section Workers

/-- What one step of a worker does to the counts. -/
structure Spends (about : QuerySpec → Bool) (shared after : Shared n) (old new : Phase n) :
    Prop where
  sends : sentAbout about .udp (begun new) + (unsent about new).toNat + queued about after ≤
    (unsent about old).toNat + queued about shared
  refetches : sentAbout about .tcp (begun new) + (refetchable about new).toNat ≤
    (refetchable about old).toNat + sentAbout about .udp (begun new)
  attempted : ∀ i, (after.pool i).attempted =
    (shared.pool i).attempted + sentTo i .udp (begun new)
  truncated : ∀ i, (after.pool i).truncated =
    (shared.pool i).truncated + sentTo i .tcp (begun new)

/-- The counters of what was sent to a resolver. -/
def sendings (health : ResolverHealth) : ℕ × ℕ := (health.attempted, health.truncated)

variable {Name : Type} {fromAscii : String → Except ProtoError Name}
variable {shared after : Shared n} {item : WorkItem} {old new : Phase n}

theorem acquired_sendings {health next : ResolverHealth}
    (acquired : health.tryAcquire = some next) : sendings next = sendings health := by
  unfold ResolverHealth.tryAcquire at acquired
  split at acquired <;> cases acquired
  rfl

theorem record_answer_sendings (health : ResolverHealth) (nowNs startedNs : ℕ)
    (response : DnsResponse) :
    sendings (recordAnswer health nowNs startedNs response) = sendings health := by
  simp only [recordAnswer, ResolverHealth.recordResponse, ResolverHealth.decayErrors,
    ResolverHealth.recordRtt]
  split_ifs <;> rfl

theorem record_error_sendings (health : ResolverHealth) (isTimeout : Bool) (nowNs : ℕ) :
    sendings (health.recordError isTimeout nowNs) = sendings health := by
  simp only [ResolverHealth.recordError]
  split_ifs <;> rfl

theorem set_resolver_sendings {i : Fin n} {health : ResolverHealth}
    (same : sendings health = sendings (shared.pool i)) (j : Fin n) :
    sendings ((shared.setResolver i health).pool j) = sendings (shared.pool j) := by
  by_cases here : j = i
  · subst here
    rw [set_resolver_same]
    exact same
  · rw [set_resolver_other shared here]

theorem after_scan_sendings (shared : Shared n) (item : WorkItem) (scan : Scan n) (i : Fin n) :
    sendings ((afterScan shared item scan).1.pool i) = sendings (shared.pool i) := by
  unfold afterScan
  split
  · rfl
  · split
    · rfl
    · split <;> rfl

/-- Nothing is sent before a permit is held. -/
theorem stage_step_sendings {stage : Stage n}
    (stepped : stageStep fromAscii shared item stage = some (after, new)) (i : Fin n) :
    sendings (after.pool i) = sendings (shared.pool i) := by
  cases stage with
  | received =>
      simp only [stageStep] at stepped
      split at stepped <;> cases stepped <;> rfl
  | pacing =>
      cases stepped
      rfl
  | reserving =>
      simp only [stageStep] at stepped
      split at stepped <;> cases stepped <;> rfl
  | visiting scan =>
      simp only [stageStep] at stepped
      split at stepped
      · split at stepped <;> cases stepped <;> rfl
      · have scanned := after_scan_sendings shared item scan i
        rwa [Option.some.inj stepped] at scanned
  | checking scan j =>
      simp only [stageStep] at stepped
      split at stepped <;> cases stepped <;> rfl
  | trying scan j =>
      simp only [stageStep] at stepped
      split at stepped
      · rename_i health acquired
        cases stepped
        exact set_resolver_sendings (acquired_sendings acquired) i
      · cases stepped
        rfl
  | sleeping untilNs =>
      simp only [stageStep] at stepped
      split at stepped <;> cases stepped
      rfl
  | waiting j =>
      rcases Option.map_eq_some_iff.mp stepped with ⟨health, acquired, same⟩
      cases same
      exact set_resolver_sendings (acquired_sendings acquired) i
  | holding j hold => cases stepped

theorem unheld_unsent (about : QuerySpec → Bool) (item : WorkItem) {stage : Stage n}
    (free : unheld stage = true) :
    unsent about (.working item stage) = about item.query ∧
      refetchable about (.working item stage) = false ∧ begun (.working item stage) = [] := by
  cases stage
  case holding => cases free
  all_goals exact ⟨rfl, rfl, rfl⟩

theorem unheld_spends (about : QuerySpec → Bool) {stage : Stage n} (free : unheld stage = true)
    (handles : Handles fromAscii shared after (.working item stage) new)
    (same : ∀ i, sendings (after.pool i) = sendings (shared.pool i)) :
    Spends about shared after (.working item stage) new := by
  rcases unheld_unsent about item free with ⟨before, none, _⟩
  have pool : ∀ i, (after.pool i).attempted = (shared.pool i).attempted ∧
      (after.pool i).truncated = (shared.pool i).truncated := fun i => Prod.mk.inj (same i)
  cases handles with
  | @works _ _ next queue _ early =>
      have goes : unsent about (.working item next) = about item.query ∧
          refetchable about (.working item next) = false ∧ begun (.working item next) = [] := by
        cases next
        case holding j hold =>
          rcases early free j hold rfl with rfl | rfl
          · exact ⟨Bool.and_true _, rfl, rfl⟩
          · exact ⟨Bool.and_true _, rfl, rfl⟩
        all_goals exact ⟨rfl, rfl, rfl⟩
      refine ⟨?_, ?_, ?_, ?_⟩
      · simp [before, goes.1, goes.2.2, sentAbout, queued, queue]
      · simp [none, goes.2.1, goes.2.2, sentAbout]
      · intro i
        simp [goes.2.2, sentTo, (pool i).1]
      · intro i
        simp [goes.2.2, sentTo, (pool i).2]
  | refuses _ queue =>
      refine ⟨?_, ?_, fun i => (pool i).1, fun i => (pool i).2⟩
      · simp [unsent, begun, sentAbout, queued, queue]
      · simp [refetchable, begun, sentAbout]
  | answers => cases free

theorem flag_count (flag : Bool) : flag.toNat = if flag = true then 1 else 0 := by
  cases flag <;> rfl

/-- Where a worker goes from its permit. -/
def heldPhase (item : WorkItem) (i : Fin n) : Held → Phase n
  | .keep next => .working item (.holding i next)
  | .drop => .working item .reserving
  | .respond _ => .releasing i

/-- A worker with a permit: the query goes out once, and is fetched again at most once. -/
theorem hold_step_counts (about : QuerySpec → Bool) (item : WorkItem) (i : Fin n)
    {health next : ResolverHealth} {nowNs : ℕ} {hold : Hold} {label : Label} {held : Held}
    (stepped : holdStep health nowNs hold label = some (next, held)) :
    sentAbout about .udp (begun (heldPhase item i held)) +
        (unsent about (heldPhase item i held)).toNat ≤
      (unsent about (.working item (.holding i hold))).toNat ∧
    sentAbout about .tcp (begun (heldPhase item i held)) +
        (refetchable about (heldPhase item i held)).toNat ≤
      (refetchable about (.working item (.holding i hold))).toNat +
        sentAbout about .udp (begun (heldPhase item i held)) := by
  unfold holdStep at stepped
  split at stepped
  -- only where the step itself depends on a test is there anything to split
  case' h_1 =>
    cases stepped
    cases health.active
  case' h_2 =>
    cases stepped
    cases health.isBenched nowNs
  case' h_7 => split at stepped <;> cases stepped
  case' h_3 | h_4 | h_5 | h_6 | h_8 | h_9 | h_10 | h_11 | h_12 => cases stepped
  all_goals
    simp [begun, heldPhase, unsent, beforeSend, refetchable, sentAbout, flag_count,
      List.countP_singleton]

/-- The resolver counts what is sent to it, when it is sent. -/
theorem hold_step_sendings (item : WorkItem) (i : Fin n) {health next : ResolverHealth} {nowNs : ℕ}
    {hold : Hold} {label : Label} {held : Held}
    (stepped : holdStep health nowNs hold label = some (next, held)) :
    sendings next = (health.attempted + sentTo i .udp (begun (heldPhase item i held)),
      health.truncated + sentTo i .tcp (begun (heldPhase item i held))) := by
  unfold holdStep at stepped
  split at stepped
  case h_1 =>
    cases stepped
    cases health.active <;> rfl
  case h_2 =>
    cases stepped
    cases health.isBenched nowNs <;> rfl
  case h_7 =>
    split at stepped <;> cases stepped
    · simp [sendings, ResolverHealth.recordTruncated, heldPhase, begun, sentTo]
    · exact record_answer_sendings _ _ _ _
  case h_8 =>
    cases stepped
    exact record_error_sendings _ _ _
  case h_10 =>
    cases stepped
    exact record_answer_sendings _ _ _ _
  all_goals cases stepped
  all_goals
    simp [sendings, ResolverHealth.recordDispatch, heldPhase, begun, sentTo]

theorem begun_elsewhere (item : WorkItem) {i j : Fin n} (other : j ≠ i) (held : Held)
    (transport : Transport) : sentTo j transport (begun (heldPhase item i held)) = 0 := by
  cases held with
  | keep hold => cases hold <;> simp [heldPhase, begun, sentTo, Ne.symm other]
  | drop => rfl
  | respond result => rfl

theorem hold_step_spends (about : QuerySpec → Bool) {i : Fin n} {hold : Hold} {label : Label}
    (stepped : workerStep fromAscii shared (.working item (.holding i hold)) label =
      some (after, new)) :
    Spends about shared after (.working item (.holding i hold)) new := by
  rcases Option.map_eq_some_iff.mp stepped with ⟨⟨health, held⟩, moved, same⟩
  rcases hold_step_counts about item i moved with ⟨sends, refetches⟩
  have counted := Prod.mk.inj (hold_step_sendings item i moved)
  have goes : new = heldPhase item i held ∧ after.queue = shared.queue ∧
      ∃ next, sendings next = sendings health ∧
        after.pool = (shared.setResolver i next).pool := by
    cases held with
    | keep next =>
        cases same
        exact ⟨rfl, rfl, health, rfl, rfl⟩
    | drop =>
        cases same
        exact ⟨rfl, rfl, health.release, rfl, rfl⟩
    | respond result =>
        cases same
        exact ⟨rfl, rfl, health, rfl, rfl⟩
  rcases goes with ⟨rfl, queue, next, kept, pool⟩
  have sent := Prod.mk.inj kept
  refine ⟨?_, refetches, ?_, ?_⟩
  · simp only [queued, queue]
    exact Nat.add_le_add_right sends _
  · intro j
    rw [pool]
    by_cases here : j = i
    · subst here
      rw [set_resolver_same, sent.1, counted.1]
    · rw [set_resolver_other shared here, begun_elsewhere item here, add_zero]
  · intro j
    rw [pool]
    by_cases here : j = i
    · subst here
      rw [set_resolver_same, sent.2, counted.2]
    · rw [set_resolver_other shared here, begun_elsewhere item here, add_zero]

theorem worker_step_spends (about : QuerySpec → Bool) {label : Label}
    (stepped : workerStep fromAscii shared old label = some (after, new)) :
    Spends about shared after old new := by
  have handles := (worker_step_handles stepped).1
  cases old with
  | idle =>
      cases label with
      | answer result => cases stepped
      | refetched full => cases stepped
      | proceed =>
          simp only [workerStep] at stepped
          split at stepped
          · rename_i item rest waiting
            cases stepped
            refine ⟨?_, le_rfl, fun _ => rfl, fun _ => rfl⟩
            simp [begun, sentAbout, unsent, queued, waiting, List.countP_cons, flag_count]
            omega
          · split at stepped <;> cases stepped
            exact ⟨le_rfl, le_rfl, fun _ => rfl, fun _ => rfl⟩
  | stopped => cases stepped
  | working item stage =>
      cases stage
      case holding i hold => exact hold_step_spends about stepped
      all_goals
        cases label
        · rw [worker_step_unheld rfl] at stepped
          exact unheld_spends about rfl handles (stage_step_sendings stepped)
        · cases stepped
        · cases stepped
  | releasing i =>
      cases label <;> cases stepped
      have freed : ∀ j, sendings ((shared.setResolver i (shared.pool i).release).pool j) =
          sendings (shared.pool j) := by
        refine set_resolver_sendings ?_
        rfl
      exact ⟨le_rfl, le_rfl, fun j => (Prod.mk.inj (freed j)).1, fun j => (Prod.mk.inj (freed j)).2⟩

theorem environment_step_sendings {environment : Environment n}
    (stepped : environmentStep shared environment = some after) (i : Fin n) :
    sendings (after.pool i) = sendings (shared.pool i) := by
  cases environment with
  | enqueue query =>
      simp only [environmentStep] at stepped
      split at stepped <;> cases stepped
      rfl
  | close =>
      cases stepped
      rfl
  | elapse nanos =>
      cases stepped
      rfl
  | probeFailed j =>
      cases stepped
      refine set_resolver_sendings ?_ i
      rfl
  | setRate j queriesPerSecond =>
      rcases Option.map_eq_some_iff.mp stepped with ⟨limiter, _, same⟩
      cases same
      refine set_resolver_sendings ?_ i
      rfl

end Workers

section Desks

variable {Name : Type} [DecidableEq Name] {lru : LruCache (Name × ℕ) CacheEntry}
variable {Wire : Type} {fromAscii : String → Except ProtoError Wire} {config : BlastDNSConfig}
variable {parse : String → Option Name} {latest : ℕ}

/-- The items a call has offered: one for each outcome it heard, and the one it waits for.
A call that was dropped may have waited for one. -/
def offers (caller : Caller) : ℕ :=
  caller.heard.length +
    match caller.progress with
    | .awaiting _ _ | .cancelled => 1
    | _ => 0

def spentOn (about : QuerySpec → Bool) (caller : Caller) : ℕ :=
  if about caller.query then offers caller else 0

theorem offers_le {attempts : ℕ} {caller : Caller} (follows : Follows attempts caller) :
    offers caller ≤ attempts := by
  have stopped : ∀ {result : Answer}, Stopped attempts caller.heard result →
      caller.heard.length ≤ attempts := by
    rintro result ⟨earlier, last, heard, _, _, within, _⟩
    simp only [heard, List.length_append, List.length_singleton]
    omega
  unfold Follows at follows
  unfold offers
  cases place : caller.progress with
  | ensuring => simp [show caller.heard = [] by simpa [place] using follows]
  | looking => simp [show caller.heard = [] by simpa [place] using follows]
  | offering attempt =>
      simp only [place] at follows ⊢
      omega
  | awaiting attempt channel =>
      simp only [place] at follows ⊢
      omega
  | judging attempt result =>
      simp only [place] at follows ⊢
      rcases follows with ⟨earlier, heard, length, within, _⟩
      simp only [heard, List.length_append, List.length_singleton]
      omega
  | storing response =>
      simp only [place] at follows ⊢
      exact stopped follows
  | completing response =>
      simp only [place] at follows ⊢
      exact stopped follows
  | conceding err =>
      simp only [place] at follows ⊢
      exact stopped follows.1
  | failing err =>
      simp only [place] at follows ⊢
      exact stopped follows.1
  | returned result =>
      simp only [place] at follows ⊢
      rcases follows with ⟨none, _⟩ | ended
      · simp [none]
      · exact stopped ended
  | cancelled =>
      simp only [place] at follows ⊢
      omega
  | panicked =>
      simp only [place] at follows ⊢
      rcases follows with ⟨response, ended⟩
      exact stopped ended

/-- A call that moves accounts for what it offers, and touches nothing else that counts. -/
structure Accounts (about : QuerySpec → Bool) (floor after : Floor n lru)
    (caller moved : Caller) : Prop where
  offered : after.client.offered.countP about + spentOn about caller ≤
    floor.client.offered.countP about + spentOn about moved
  queue : queued about after.system.dispatch.shared + floor.client.offered.countP about ≤
    queued about floor.system.dispatch.shared + after.client.offered.countP about
  procs : after.system.dispatch.procs = floor.system.dispatch.procs
  pool : after.system.dispatch.shared.pool = floor.system.dispatch.shared.pool

variable {floor after : Floor n lru} {caller moved : Caller}

theorem spent_more (about : QuerySpec → Bool) (extra : ℕ)
    (more : offers caller + extra ≤ offers moved) (query : moved.query = caller.query) :
    spentOn about caller + (if about caller.query then extra else 0) ≤ spentOn about moved := by
  simp only [spentOn, query]
  split
  · exact more
  · exact le_rfl

theorem accounts_quiet (about : QuerySpec → Bool) {client : ClientState lru}
    (offered : client.offered = floor.client.offered) (query : moved.query = caller.query)
    (more : offers caller ≤ offers moved) :
    Accounts about floor { floor with client := client } caller moved := by
  refine ⟨?_, ?_, rfl, rfl⟩
  · have spent := spent_more about 0 more query
    simp only [offered]
    omega
  · simp only [offered]
    omega

theorem moves_accounts (about : QuerySpec → Bool)
    (moves : Moves fromAscii config parse latest floor caller after moved) :
    Accounts about floor after caller moved := by
  cases moves with
  | ensured place => exact accounts_quiet about rfl rfl (by simp [offers, Caller.goes, place])
  | hit place looked =>
      exact accounts_quiet about (lookup_keeps looked).2 rfl (by simp [offers, Caller.goes, place])
  | missed place looked =>
      exact accounts_quiet about (lookup_keeps looked).2 rfl (by simp [offers, Caller.goes, place])
  | exhausted place => exact accounts_quiet about rfl rfl (by simp [offers, Caller.goes, place])
  | @judged attempt result place =>
      refine accounts_quiet about rfl rfl ?_
      simp [offers, Caller.goes, place]
  | stored place kept =>
      exact accounts_quiet about (store_keeps kept).2 rfl (by simp [offers, Caller.goes, place])
  | panics place => exact accounts_quiet about rfl rfl (by simp [offers, Caller.goes, place])
  | completes place => exact accounts_quiet about rfl rfl (by simp [offers, Caller.goes, place])
  | concedes place => exact accounts_quiet about rfl rfl (by simp [offers, Caller.goes, place])
  | fails place => exact accounts_quiet about rfl rfl (by simp [offers, Caller.goes, place])
  | cancels place =>
      refine accounts_quiet about rfl rfl ?_
      rcases place with place | ⟨_, place⟩ | ⟨_, _, place⟩ <;> simp [offers, Caller.goes, place]
  | heard place =>
      exact accounts_quiet about rfl rfl (by simp [offers, Caller.hears, place])
  | refused place =>
      have more : offers caller + 1 ≤
          offers (caller.hears .closed (.returned (.error .queueClosed))) := by
        simp [offers, Caller.hears, place]
      have spent := spent_more about 1 more rfl
      refine ⟨?_, ?_, rfl, rfl⟩
      · simp only [ClientState.offer, List.countP_append, List.countP_singleton]
        omega
      · simp only [ClientState.offer, List.countP_append]
        omega
  -- the item is in the queue and counted as offered in one step
  | @offered attempt place within system accepting submitted =>
      rcases system_step_submit.mp submitted with ⟨_, _, _, rfl⟩
      have more : offers caller + 1 ≤
          offers (caller.goes (.awaiting attempt floor.system.dispatch.shared.opened)) := by
        simp [offers, Caller.goes, place]
      have spent := spent_more about 1 more rfl
      refine ⟨?_, ?_, rfl, rfl⟩
      · simp only [ClientState.offer, List.countP_append, List.countP_singleton]
        omega
      · simp only [queued, Calls.submitted, ClientState.offer, List.countP_append,
          List.countP_singleton]
        omega

/-- The calls of a client, with a record of all that the workers put on the wire. -/
structure Tapped (n : ℕ) (lru : LruCache (Name × ℕ) CacheEntry) where
  desk : Desk n lru
  sent : List (Sent n) := []

/-- What this event put on the wire, if it has led here. -/
def put (desk : Desk n lru) : DeskEvent n → List (Sent n)
  | .system (.worker index _) =>
      (desk.shared.system.dispatch.procs[index]?.map begun).getD []
  | _ => []

def tapStep (fromAscii : String → Except ProtoError Wire) (config : BlastDNSConfig)
    (parse : String → Option Name) (latest : ℕ) (tapped : Tapped n lru) (event : DeskEvent n) :
    Option (Tapped n lru) :=
  (deskStep fromAscii config parse latest tapped.desk event).map fun desk =>
    { desk := desk, sent := tapped.sent ++ put desk event }

def TapSteps (fromAscii : String → Except ProtoError Wire) (config : BlastDNSConfig)
    (parse : String → Option Name) (latest : ℕ) (before after : Tapped n lru) : Prop :=
  ∃ event, tapStep fromAscii config parse latest before event = some after

def newTapped (lru : LruCache (Name × ℕ) CacheEntry) (client : BlastDNSClient) :
    Tapped client.resolvers.length lru :=
  { desk := newDesk lru client }

/-- The traffic is accounted for, by the calls and by the resolvers. -/
structure Budgeted (about : QuerySpec → Bool) (tapped : Tapped n lru) : Prop where
  sent : sentAbout about .udp tapped.sent +
      tapped.desk.shared.system.dispatch.procs.countP (unsent about) +
      queued about tapped.desk.shared.system.dispatch.shared ≤
    tapped.desk.shared.client.offered.countP about
  refetched : sentAbout about .tcp tapped.sent +
      tapped.desk.shared.system.dispatch.procs.countP (refetchable about) ≤
    sentAbout about .udp tapped.sent
  attempted : ∀ i, (tapped.desk.shared.system.dispatch.shared.pool i).attempted =
    sentTo i .udp tapped.sent
  truncated : ∀ i, (tapped.desk.shared.system.dispatch.shared.pool i).truncated =
    sentTo i .tcp tapped.sent
  offered : tapped.desk.shared.client.offered.countP about ≤
    (tapped.desk.procs.map (spentOn about)).sum

variable {about : QuerySpec → Bool} {tapped : Tapped n lru} {later : Desk n lru}

theorem call_step_budgeted {index : ℕ} {label : CallLabel}
    (acted : act (callStep fromAscii config parse latest) tapped.desk index label = some later)
    (budgeted : Budgeted about tapped) : Budgeted about { tapped with desk := later } := by
  rcases act_some acted with ⟨caller, floor, moved, found, stepped, rfl⟩
  have accounts := moves_accounts about (call_step_moves stepped)
  have spent := weight_replaced moved (spentOn about) found
  rcases budgeted with ⟨sent, refetched, attempted, truncated, offered⟩
  refine ⟨?_, ?_, ?_, ?_, ?_⟩
  · have queue := accounts.queue
    simp only [accounts.procs]
    omega
  · simp only [accounts.procs]
    exact refetched
  · simp only [accounts.pool]
    exact attempted
  · simp only [accounts.pool]
    exact truncated
  · have more := accounts.offered
    dsimp only
    omega

theorem worker_act_budgeted {index : ℕ} {label : Label} {dispatch : Dispatch n}
    (exchanges : List (Exchange n))
    (acted : act (workerStep fromAscii) tapped.desk.shared.system.dispatch index label =
      some dispatch)
    (budgeted : Budgeted about tapped) :
    Budgeted about
      { desk := { tapped.desk with shared := { tapped.desk.shared with
          system := { tapped.desk.shared.system with dispatch := dispatch }
          exchanges := exchanges } }
        sent := tapped.sent ++ (dispatch.procs[index]?.map begun).getD [] } := by
  -- the worker that moved changes each headcount by itself, and the step says by how much
  rcases act_headcount acted with ⟨phase, moved, found, stepped, counts⟩
  have landed : dispatch.procs[index]? = some moved := by
    rcases act_some acted with ⟨same, shared, next, here, taken, rfl⟩
    cases found.symm.trans here
    cases stepped.symm.trans taken
    exact List.getElem?_set_self (List.getElem?_eq_some_iff.mp found).1
  rcases worker_step_spends about stepped with ⟨sends, refetches, asks, fetches⟩
  rcases budgeted with ⟨sent, refetched, attempted, truncated, offered⟩
  simp only [headcount, ← flag_count] at counts
  simp only [landed, Option.map_some, Option.getD_some]
  refine ⟨?_, ?_, ?_, ?_, offered⟩
  · have carried := counts (unsent about)
    simp only [sentAbout, List.countP_append] at sends sent ⊢
    omega
  · have carried := counts (refetchable about)
    simp only [sentAbout, List.countP_append] at refetches refetched ⊢
    omega
  · intro i
    simp only [sentTo, List.countP_append] at asks attempted ⊢
    rw [asks i, attempted i]
  · intro i
    simp only [sentTo, List.countP_append] at fetches truncated ⊢
    rw [fetches i, truncated i]

/-- What is neither a worker nor a call sends nothing. -/
theorem quiet_budgeted {system : System n} (exchanges : List (Exchange n))
    (budgeted : Budgeted about tapped)
    (queue : system.dispatch.shared.queue = tapped.desk.shared.system.dispatch.shared.queue)
    (pool : ∀ i, sendings (system.dispatch.shared.pool i) =
      sendings (tapped.desk.shared.system.dispatch.shared.pool i))
    (procs : ∀ kind : Phase n → Bool, kind .idle = false →
      system.dispatch.procs.countP kind = tapped.desk.shared.system.dispatch.procs.countP kind) :
    Budgeted about
      { desk := { tapped.desk with shared := { tapped.desk.shared with
          system := system, exchanges := exchanges } }
        sent := tapped.sent ++ [] } := by
  rcases budgeted with ⟨sent, refetched, attempted, truncated, offered⟩
  refine ⟨?_, ?_, ?_, ?_, offered⟩
  · simp only [List.append_nil, procs (unsent about) rfl, queued, queue]
    exact sent
  · simp only [List.append_nil, procs (refetchable about) rfl]
    exact refetched
  · intro i
    simp only [List.append_nil, (Prod.mk.inj (pool i)).1]
    exact attempted i
  · intro i
    simp only [List.append_nil, (Prod.mk.inj (pool i)).2]
    exact truncated i

theorem system_step_budgeted {action : Action n} {system : System n}
    (exchanges : List (Exchange n)) (free : ∀ handle query, action ≠ .submit handle query)
    (stepped : systemStep fromAscii config tapped.desk.shared.system action = some system)
    (budgeted : Budgeted about tapped) :
    let later : Desk n lru := { tapped.desk with shared := { tapped.desk.shared with
      system := system, exchanges := exchanges } }
    Budgeted about { desk := later, sent := tapped.sent ++ put later (.system action) } := by
  cases action with
  | submit handle query => exact absurd rfl (free handle query)
  | worker index label =>
      rcases Option.map_eq_some_iff.mp stepped with ⟨dispatch, acted, rfl⟩
      exact worker_act_budgeted exchanges acted budgeted
  | clone handle =>
      rcases Option.map_eq_some_iff.mp stepped with ⟨cell, _, rfl⟩
      exact quiet_budgeted exchanges budgeted rfl (fun _ => rfl) (fun _ _ => rfl)
  | startInit handle =>
      simp only [systemStep] at stepped
      split at stepped <;> cases stepped
      exact quiet_budgeted exchanges budgeted rfl (fun _ => rfl) (fun _ _ => rfl)
  | cancelInit handle =>
      simp only [systemStep] at stepped
      split at stepped <;> cases stepped
      exact quiet_budgeted exchanges budgeted rfl (fun _ => rfl) (fun _ _ => rfl)
  | finishInit handle =>
      simp only [systemStep] at stepped
      split at stepped <;> cases stepped
      refine quiet_budgeted exchanges budgeted rfl (fun _ => rfl) ?_
      intro kind idle
      simp [spawnAll, hire, List.countP_append, List.countP_replicate, idle]
  | around environment =>
      rcases system_step_around stepped with ⟨idle, shared, moved, rfl⟩
      cases environment_step_surrounds moved with
      | enqueues => exact absurd rfl (idle _)
      | leaves _ queue =>
          exact quiet_budgeted exchanges budgeted queue (environment_step_sendings moved)
            (fun _ _ => rfl)

theorem tap_step_budgeted {after : Tapped n lru}
    (stepped : TapSteps fromAscii config parse latest tapped after)
    (budgeted : Budgeted about tapped) : Budgeted about after := by
  rcases stepped with ⟨event, stepped⟩
  rcases Option.map_eq_some_iff.mp stepped with ⟨desk, moved, rfl⟩
  cases event with
  | arrive handle host recordType =>
      simp only [deskStep] at moved
      split at moved <;> cases moved
      rcases budgeted with ⟨sent, refetched, attempted, truncated, offered⟩
      simp only [put, List.append_nil]
      refine ⟨sent, refetched, attempted, truncated, offered.trans ?_⟩
      simp [hire]
  | call index label =>
      simp only [put, List.append_nil]
      exact call_step_budgeted moved budgeted
  | system action =>
      rcases desk_step_system moved with ⟨free, system, changed, rfl⟩
      exact system_step_budgeted _ free changed budgeted

variable {client : BlastDNSClient}

theorem new_tapped_budgeted : Budgeted about (newTapped lru client) := by
  refine ⟨le_rfl, le_rfl, ?_, ?_, le_rfl⟩
  · intro i
    rfl
  · intro i
    rfl

theorem reached_budgeted {tapped : Tapped client.resolvers.length lru}
    (reached : Relation.ReflTransGen (TapSteps fromAscii client.config parse latest)
      (newTapped lru client) tapped) (about : QuerySpec → Bool) : Budgeted about tapped :=
  reachable_invariant (Budgeted about) (fun _ _ kept stepped => tap_step_budgeted stepped kept)
    reached new_tapped_budgeted

theorem tapped_desk {first last : Tapped n lru}
    (reached : Relation.ReflTransGen (TapSteps fromAscii config parse latest) first last) :
    Relation.ReflTransGen (DeskSteps fromAscii config parse latest) first.desk last.desk := by
  refine reached.lift Tapped.desk ?_
  rintro before after ⟨event, stepped⟩
  rcases Option.map_eq_some_iff.mp stepped with ⟨desk, moved, rfl⟩
  exact ⟨event, moved⟩

/-- Whatever the calls can do can be recorded. -/
theorem desk_tapped {tapped : Tapped n lru} {desk : Desk n lru}
    (reached : Relation.ReflTransGen (DeskSteps fromAscii config parse latest) tapped.desk desk) :
    ∃ after : Tapped n lru,
      Relation.ReflTransGen (TapSteps fromAscii config parse latest) tapped after ∧
        after.desk = desk := by
  induction reached with
  | refl => exact ⟨tapped, .refl, rfl⟩
  | tail _ stepped ih =>
      rcases ih with ⟨before, recorded, rfl⟩
      rcases stepped with ⟨event, moved⟩
      exact ⟨_, recorded.tail ⟨event, Option.map_eq_some_iff.mpr ⟨_, moved, rfl⟩⟩, rfl⟩

theorem on_wire_refetchable (phase : Phase n) (wired : onWire about phase = true) :
    refetchable about phase = true := by
  unfold onWire at wired
  split at wired
  · exact wired
  · cases wired

/-- Every query is sent to one resolver. -/
theorem sent_total (transport : Transport) (sent : List (Sent n)) :
    ∑ i, sentTo i transport sent = sentAbout (fun _ => true) transport sent := by
  induction sent with
  | nil => simp [sentTo, sentAbout]
  | cons one rest ih =>
      simp only [sentTo, sentAbout, List.countP_cons, Finset.sum_add_distrib] at ih ⊢
      rw [ih]
      cases decide (one.transport = transport) <;> simp

/-- In every interleaving, whatever names are looked at: no more queries are sent about them
than the calls for them have offered, and no more refetches are begun than queries have
come to an end. Each resolver's counters are those of the queries and refetches begun
with it, and together no more queries are sent than the attempts the calls may make. -/
theorem traffic_within_attempts {tapped : Tapped client.resolvers.length lru}
    (reached : Relation.ReflTransGen (TapSteps fromAscii client.config parse latest)
      (newTapped lru client) tapped) :
    (∀ about, sentAbout about .udp tapped.sent ≤ (tapped.desk.procs.map (spentOn about)).sum ∧
      sentAbout about .tcp tapped.sent +
        tapped.desk.shared.system.dispatch.procs.countP (onWire about) ≤
          sentAbout about .udp tapped.sent) ∧
    (∀ i, (tapped.desk.shared.system.dispatch.shared.pool i).attempted =
        sentTo i .udp tapped.sent ∧
      (tapped.desk.shared.system.dispatch.shared.pool i).truncated = sentTo i .tcp tapped.sent) ∧
    ∑ i, (tapped.desk.shared.system.dispatch.shared.pool i).attempted ≤
      tapped.desk.procs.length * attemptsFor client.config.maxRetries := by
  have follows : ∀ caller ∈ tapped.desk.procs,
      Follows (attemptsFor client.config.maxRetries) caller :=
    reachable_invariant (fun desk : Desk client.resolvers.length lru => ∀ caller ∈ desk.procs,
      Follows (attemptsFor client.config.maxRetries) caller)
      (fun _ _ kept stepped => desk_step_follows stepped kept) (tapped_desk reached)
      (by simp [newTapped, newDesk])
  have bounded : ∀ about,
      sentAbout about .udp tapped.sent ≤ (tapped.desk.procs.map (spentOn about)).sum := by
    intro about
    have budgeted := reached_budgeted reached about
    have sent := budgeted.sent
    have offered := budgeted.offered
    omega
  have budgeted := reached_budgeted reached fun _ => true
  refine ⟨?_, fun i => ⟨budgeted.attempted i, budgeted.truncated i⟩, ?_⟩
  · intro about
    have among : tapped.desk.shared.system.dispatch.procs.countP (onWire about) ≤
        tapped.desk.shared.system.dispatch.procs.countP (refetchable about) :=
      List.countP_mono_left fun phase _ wired => on_wire_refetchable phase wired
    exact ⟨bounded about, (Nat.add_le_add_left among _).trans
      (reached_budgeted reached about).refetched⟩
  · simp only [budgeted.attempted]
    rw [sent_total]
    apply (bounded fun _ => true).trans
    have each : ∀ spent ∈ tapped.desk.procs.map (spentOn fun _ => true),
        spent ≤ attemptsFor client.config.maxRetries := by
      intro spent member
      rcases List.mem_map.mp member with ⟨caller, inside, rfl⟩
      exact offers_le (follows caller inside)
    have total := List.sum_le_card_nsmul _ _ each
    simpa using total

/-- Two calls for one name came back, and the second was answered from the cache: one query
was sent for both. -/
theorem traffic_within_attempts_cached :
    ∃ tapped : Tapped 1 (listed : LruCache (String × ℕ) CacheEntry),
      Relation.ReflTransGen (TapSteps anyName narrowConfig some (10 ^ 30))
        (newTapped listed narrowClient) tapped ∧
      tapped.desk.procs.length = 2 ∧
      (∀ caller ∈ tapped.desk.procs, caller.progress = .returned (.ok shortAnswer)) ∧
      sentAbout (fun _ => true) .udp tapped.sent ≤ 1 ∧
      sentAbout (fun _ => true) .tcp tapped.sent ≤ 1 := by
  rcases two_calls_reached with ⟨desk, reached, first, second, procs, one, once, two, none⟩
  have begins : (newTapped (listed : LruCache (String × ℕ) CacheEntry) narrowClient).desk =
      newDesk listed narrowClient := rfl
  rw [← begins] at reached
  rcases desk_tapped reached with ⟨tapped, recorded, rfl⟩
  rcases (traffic_within_attempts recorded).1 fun _ => true with ⟨sent, refetched⟩
  have spent : (tapped.desk.procs.map (spentOn fun _ => true)).sum = 1 := by
    simp [procs, spentOn, offers, one, once, two, none]
  rw [spent] at sent
  refine ⟨tapped, recorded, by simp [procs], by simp [procs, one, two], sent, ?_⟩
  exact (Nat.le_add_right _ _).trans (refetched.trans sent)

end Desks

end BlastDns.Traffic
