import BlastDns.Runs
import BlastDns.Worker

/-!
Dispatch accounting. Three quantities are split between the shared state and
the workers, and no step of any worker changes their sum: the permits of an
entry, free or held; the queries of an entry that were dispatched and not yet
put in a bucket; and each opened response channel, which is queued, carried or
answered. Everything said about interleavings follows from these sums.
-/

namespace BlastDns.Accounting

open Config Crew Health NetText Runs Worker

variable {n : ℕ}

/-- Between `record_dispatch` and the recording of the outcome. -/
def holdInFlight : Hold → Bool
  | .querying _ | .arrived _ _ | .refetching _ _ | .completed _ _ => true
  | _ => false

def holds (i : Fin n) : Phase n → Bool
  | .working _ (.holding j _) | .releasing j => i = j
  | _ => false

def isInFlight (i : Fin n) : Phase n → Bool
  | .working _ (.holding j hold) => i = j && holdInFlight hold
  | _ => false

def carries (responder : ℕ) : Phase n → Bool
  | .working item _ => item.responder = responder
  | _ => false

def mark (kind : Phase n → Bool) (phase : Phase n) : ℤ := if kind phase then 1 else 0

def freePermits (i : Fin n) (shared : Shared n) : ℤ := (shared.pool i).inflight

def unrecorded (i : Fin n) (shared : Shared n) : ℤ :=
  (shared.pool i).recorded - (shared.pool i).attempted

/-- Places of a channel in the queue and among the answers, less its opening. -/
def settledItems (responder : ℕ) (shared : Shared n) : ℤ :=
  shared.queue.countP (fun item => item.responder = responder) +
    shared.sent.countP (fun answer => answer.1 = responder) -
    if responder < shared.opened then 1 else 0

/-- What a step may not change: each entry's sums and address, and each channel's sum. -/
structure Conserves (before after : Shared n) (old new : Phase n) : Prop where
  resolver : ∀ i, (after.pool i).resolver = (before.pool i).resolver
  permits : ∀ i, freePermits i after + mark (holds i) new =
    freePermits i before + mark (holds i) old
  outcomes : ∀ i, unrecorded i after + mark (isInFlight i) new =
    unrecorded i before + mark (isInFlight i) old
  items : ∀ responder, settledItems responder after + mark (carries responder) new =
    settledItems responder before + mark (carries responder) old

section Held

def heldInFlight : Held → Bool
  | .keep hold => holdInFlight hold
  | .drop | .respond _ => false

theorem record_answer_ledger (health : ResolverHealth) (nowNs startedNs : ℕ)
    (response : DnsResponse) :
    ledger (recordAnswer health nowNs startedNs response) =
      (health.resolver, health.inflight, health.attempted, health.recorded + 1) :=
  record_response_ledger health _ _ _

def Balanced (before after : ResolverHealth) (flyingBefore flyingAfter : Bool) : Prop :=
  after.resolver = before.resolver ∧ after.inflight = before.inflight ∧
    (after.recorded : ℤ) - after.attempted + flyingAfter.toNat =
      before.recorded - before.attempted + flyingBefore.toNat

theorem balanced_recorded {before after : ResolverHealth}
    (same : ledger after =
      (before.resolver, before.inflight, before.attempted, before.recorded + 1)) :
    Balanced before after true false := by
  simp only [ledger, Prod.mk.injEq] at same
  rcases same with ⟨resolver, inflight, attempted, recorded⟩
  refine ⟨resolver, inflight, ?_⟩
  rw [attempted, recorded]
  simp
  omega

theorem balanced_same (health : ResolverHealth) (flying : Bool) :
    Balanced health health flying flying :=
  ⟨rfl, rfl, rfl⟩

theorem balanced_dispatched (health : ResolverHealth) :
    Balanced health health.recordDispatch false true := by
  refine ⟨rfl, rfl, ?_⟩
  simp [ResolverHealth.recordDispatch, ResolverHealth.recorded]
  omega

/-- Every exit of `query` records exactly once what `record_dispatch` opened. -/
theorem hold_step_balanced {health after : ResolverHealth} {nowNs : ℕ} {hold : Hold}
    {label : Label} {held : Held} (stepped : holdStep health nowNs hold label = some (after, held)) :
    Balanced health after (holdInFlight hold) (heldInFlight held) := by
  unfold holdStep at stepped
  split at stepped
  · cases stepped
    split <;> exact balanced_same health false
  · cases stepped
    split <;> exact balanced_same health false
  · cases stepped
    exact balanced_same health false
  · cases stepped
    exact balanced_same health false
  · cases stepped
    exact balanced_dispatched health
  · cases stepped
    exact balanced_same health true
  · split at stepped
    · cases stepped
      exact ⟨rfl, rfl, rfl⟩
    · cases stepped
      exact balanced_recorded (record_answer_ledger health _ _ _)
  · cases stepped
    exact balanced_recorded (record_error_ledger health _ _)
  · cases stepped
    exact balanced_same health true
  · cases stepped
    exact balanced_recorded (record_answer_ledger health _ _ _)
  · cases stepped
    exact balanced_same health false
  · cases stepped

end Held

section Steps

variable {Name : Type} {fromAscii : String → Except ProtoError Name}
variable {shared : Shared n} {old new : Phase n}

@[simp]
theorem set_resolver_same (shared : Shared n) (i : Fin n) (health : ResolverHealth) :
    (shared.setResolver i health).pool i = health := by
  simp [Shared.setResolver]

@[simp]
theorem set_resolver_other (shared : Shared n) {i j : Fin n} (other : j ≠ i)
    (health : ResolverHealth) : (shared.setResolver i health).pool j = shared.pool j := by
  simp [Shared.setResolver, other]

theorem set_resolver_twice (shared : Shared n) (i : Fin n) (first second : ResolverHealth) :
    (shared.setResolver i first).setResolver i second = shared.setResolver i second := by
  simp [Shared.setResolver]

def unheld : Stage n → Bool
  | .holding _ _ => false
  | _ => true

theorem unheld_marks {stage : Stage n} (free : unheld stage = true) (item : WorkItem) (i : Fin n) :
    holds i (.working item stage) = false ∧ isInFlight i (.working item stage) = false := by
  cases stage
  case holding => cases free
  all_goals exact ⟨rfl, rfl⟩

theorem conserves_walked {after : Shared n} {item : WorkItem} {stage next : Stage n}
    (free : unheld stage = true) (freeNext : unheld next = true)
    (pool : after.pool = shared.pool) (queue : after.queue = shared.queue)
    (sent : after.sent = shared.sent) (opened : after.opened = shared.opened) :
    Conserves shared after (.working item stage) (.working item next) where
  resolver i := by rw [pool]
  permits i := by
    simp [freePermits, mark, pool, (unheld_marks free item i).1, (unheld_marks freeNext item i).1]
  outcomes i := by
    simp [unrecorded, mark, pool, (unheld_marks free item i).2, (unheld_marks freeNext item i).2]
  items responder := by simp [settledItems, mark, queue, sent, opened, carries]

theorem settled_responded (shared : Shared n) (item : WorkItem) (result : Answer) (responder : ℕ) :
    settledItems responder (shared.respond item result) =
      settledItems responder shared + if item.responder = responder then 1 else 0 := by
  simp only [settledItems, Shared.respond, List.countP_append, List.countP_singleton]
  split <;> simp_all <;> omega

theorem conserves_rejected {item : WorkItem} {stage : Stage n} {result : Answer}
    (free : unheld stage = true) :
    Conserves shared (shared.respond item result) (.working item stage) .idle where
  resolver i := rfl
  permits i := by
    rw [mark, mark, (unheld_marks free item i).1]
    rfl
  outcomes i := by
    rw [mark, mark, (unheld_marks free item i).2]
    rfl
  items responder := by
    rw [settled_responded]
    simp [mark, carries]

/-- An entry whose permits and ledger move as the worker's phase does. -/
theorem conserves_entry (j : Fin n) {health : ResolverHealth}
    (address : health.resolver = (shared.pool j).resolver)
    (elsewhere : ∀ i, i ≠ j → holds i new = holds i old ∧ isInFlight i new = isInFlight i old)
    (permits : (health.inflight : ℤ) + mark (holds j) new =
      (shared.pool j).inflight + mark (holds j) old)
    (outcomes : (health.recorded : ℤ) - health.attempted + mark (isInFlight j) new =
      (shared.pool j).recorded - (shared.pool j).attempted + mark (isInFlight j) old)
    (item : ∀ responder, carries responder new = carries responder old) :
    Conserves shared (shared.setResolver j health) old new where
  resolver i := by
    by_cases here : i = j
    · subst here
      rw [set_resolver_same, address]
    · rw [set_resolver_other shared here]
  permits i := by
    by_cases here : i = j
    · subst here
      simpa [freePermits] using permits
    · simp [freePermits, mark, set_resolver_other shared here, elsewhere i here]
  outcomes i := by
    by_cases here : i = j
    · subst here
      simpa [unrecorded] using outcomes
    · simp [unrecorded, mark, set_resolver_other shared here, elsewhere i here]
  items responder := by
    rw [mark, mark, item responder]
    rfl

theorem try_acquire_some {health taken : ResolverHealth} (acquired : health.tryAcquire = some taken) :
    0 < health.inflight ∧ taken = { health with inflight := health.inflight - 1 } := by
  rw [ResolverHealth.tryAcquire] at acquired
  split at acquired
  · cases acquired
  · rename_i free
    cases acquired
    exact ⟨Nat.pos_of_ne_zero free, rfl⟩

theorem conserves_acquired {item : WorkItem} {stage : Stage n} {i : Fin n} {hold : Hold}
    {taken : ResolverHealth} (acquired : (shared.pool i).tryAcquire = some taken)
    (free : unheld stage = true) (early : holdInFlight hold = false) :
    Conserves shared (shared.setResolver i taken) (.working item stage)
      (.working item (.holding i hold)) := by
  rcases try_acquire_some acquired with ⟨available, same⟩
  have unmarked := unheld_marks free item
  apply conserves_entry i
  · rw [same]
  · intro j other
    rw [(unmarked j).1, (unmarked j).2]
    simp [holds, isInFlight, other]
  · rw [mark, mark, (unmarked i).1, same]
    simp [holds]
    omega
  · rw [mark, mark, (unmarked i).2, same]
    simp [isInFlight, early, ResolverHealth.recorded]
  · intro responder
    rfl

theorem after_scan_conserves (shared : Shared n) (item : WorkItem) (scan : Scan n) :
    Conserves shared (afterScan shared item scan).1 (.working item (.visiting scan))
      (afterScan shared item scan).2 := by
  rw [afterScan]
  split
  · exact conserves_rejected rfl
  · split
    · exact conserves_walked rfl rfl rfl rfl rfl rfl
    · split <;>
        exact conserves_walked rfl rfl rfl rfl rfl rfl

theorem stage_step_conserves {item : WorkItem} {stage : Stage n} {after : Shared n}
    (stepped : stageStep fromAscii shared item stage = some (after, new)) :
    Conserves shared after (.working item stage) new := by
  cases stage with
  | received =>
      simp only [stageStep] at stepped
      split at stepped <;> cases stepped
      · exact conserves_walked rfl rfl rfl rfl rfl rfl
      · exact conserves_rejected rfl
  | pacing =>
      cases stepped
      exact conserves_walked rfl rfl rfl rfl rfl rfl
  | reserving =>
      simp only [stageStep] at stepped
      split at stepped <;> cases stepped
      · exact conserves_rejected rfl
      · exact conserves_walked rfl rfl rfl rfl rfl rfl
  | visiting scan =>
      simp only [stageStep] at stepped
      split at stepped
      · split at stepped <;> cases stepped <;>
          exact conserves_walked rfl rfl rfl rfl rfl rfl
      · rw [Option.some.injEq] at stepped
        have scanned := after_scan_conserves shared item scan
        rwa [stepped] at scanned
  | checking scan i =>
      simp only [stageStep] at stepped
      split at stepped <;> cases stepped <;>
        exact conserves_walked rfl rfl rfl rfl rfl rfl
  | trying scan i =>
      simp only [stageStep] at stepped
      split at stepped
      · rename_i taken acquired
        cases stepped
        exact conserves_acquired acquired rfl rfl
      · cases stepped
        exact conserves_walked rfl rfl rfl rfl rfl rfl
  | sleeping untilNs =>
      simp only [stageStep] at stepped
      split at stepped <;> cases stepped
      exact conserves_walked rfl rfl rfl rfl rfl rfl
  | waiting i =>
      rcases Option.map_eq_some_iff.mp stepped with ⟨taken, acquired, same⟩
      cases same
      exact conserves_acquired acquired rfl rfl
  | holding i hold => cases stepped

theorem Conserves.trans {first second third : Shared n} {one two three : Phase n}
    (left : Conserves first second one two) (right : Conserves second third two three) :
    Conserves first third one three where
  resolver i := (right.resolver i).trans (left.resolver i)
  permits i := (right.permits i).trans (left.permits i)
  outcomes i := (right.outcomes i).trans (left.outcomes i)
  items responder := (right.items responder).trans (left.items responder)

theorem mark_in_flight (item : WorkItem) (i : Fin n) (hold : Hold) :
    mark (isInFlight i) (.working item (.holding i hold)) = (holdInFlight hold).toNat := by
  cases flying : holdInFlight hold <;> simp [mark, isInFlight, flying]

theorem conserves_held {item : WorkItem} {i : Fin n} {hold next : Hold} {health : ResolverHealth}
    (balanced : Balanced (shared.pool i) health (holdInFlight hold) (holdInFlight next)) :
    Conserves shared (shared.setResolver i health) (.working item (.holding i hold))
      (.working item (.holding i next)) := by
  rcases balanced with ⟨address, permits, outcomes⟩
  apply conserves_entry i address
  · intro j other
    simp [holds, isInFlight, other]
  · rw [permits]
    rfl
  · rw [mark_in_flight, mark_in_flight]
    exact outcomes
  · intro responder
    rfl

theorem conserves_dropped {item : WorkItem} {i : Fin n} {hold : Hold}
    (grounded : holdInFlight hold = false) :
    Conserves shared (shared.setResolver i (shared.pool i).release)
      (.working item (.holding i hold)) (.working item .reserving) := by
  apply conserves_entry i
  · rfl
  · intro j other
    simp [holds, isInFlight, other]
  · simp [mark, holds, ResolverHealth.release]
  · rw [mark_in_flight, grounded]
    rfl
  · intro responder
    rfl

theorem conserves_answered {item : WorkItem} {i : Fin n} {hold : Hold} {result : Answer}
    (grounded : holdInFlight hold = false) :
    Conserves shared (shared.respond item result) (.working item (.holding i hold))
      (.releasing i) where
  resolver _ := rfl
  permits _ := rfl
  outcomes j := by
    by_cases here : j = i
    · subst here
      rw [mark_in_flight, grounded]
      rfl
    · simp [mark, isInFlight, here]
      rfl
  items responder := by
    rw [settled_responded]
    simp [mark, carries]

theorem conserves_released {i : Fin n} :
    Conserves shared (shared.setResolver i (shared.pool i).release) (.releasing i) .idle := by
  apply conserves_entry i
  · rfl
  · intro j other
    simp [holds, isInFlight, other]
  · simp [mark, holds, ResolverHealth.release]
  · rfl
  · intro responder
    rfl

theorem conserves_received {item : WorkItem} {rest : List WorkItem}
    (waiting : shared.queue = item :: rest) :
    Conserves shared { shared with queue := rest } .idle (.working item .received) where
  resolver _ := rfl
  permits _ := rfl
  outcomes _ := rfl
  items responder := by
    simp only [settledItems, waiting, List.countP_cons, mark, carries]
    split <;> simp_all <;> omega

theorem worker_step_unheld {item : WorkItem} {stage : Stage n} (free : unheld stage = true) :
    workerStep fromAscii shared (.working item stage) .proceed =
      stageStep fromAscii shared item stage := by
  cases stage
  case holding => cases free
  all_goals rfl

theorem hold_step_conserves {item : WorkItem} {i : Fin n} {hold : Hold} {label : Label}
    {after : Shared n}
    (stepped : workerStep fromAscii shared (.working item (.holding i hold)) label =
      some (after, new)) :
    Conserves shared after (.working item (.holding i hold)) new := by
  rcases Option.map_eq_some_iff.mp stepped with ⟨⟨health, held⟩, moved, same⟩
  have balanced := hold_step_balanced moved
  cases held with
  | keep next =>
      cases same
      exact conserves_held balanced
  | drop =>
      -- the permit goes back to the entry as the last check left it
      cases same
      have kept : Conserves shared (shared.setResolver i health) _
          (.working item (.holding i .granted)) := conserves_held balanced
      have dropped := kept.trans (conserves_dropped rfl)
      rwa [set_resolver_same, set_resolver_twice] at dropped
  | respond result =>
      cases same
      have kept : Conserves shared (shared.setResolver i health) _
          (.working item (.holding i (.recorded result))) := conserves_held balanced
      exact kept.trans (conserves_answered rfl)

/-- The step lemma: whatever a worker does, every sum is conserved. -/
theorem worker_step_conserves {label : Label} {after : Shared n}
    (stepped : workerStep fromAscii shared old label = some (after, new)) :
    Conserves shared after old new := by
  cases old with
  | idle =>
      cases label with
      | proceed =>
          simp only [workerStep] at stepped
          split at stepped
          · rename_i item rest waiting
            cases stepped
            exact conserves_received waiting
          · split at stepped <;> cases stepped
            exact ⟨fun _ => rfl, fun _ => rfl, fun _ => rfl, fun _ => rfl⟩
      | answer result => cases stepped
      | refetched full => cases stepped
  | stopped => cases stepped
  | working item stage =>
      cases stage
      case holding i hold => exact hold_step_conserves stepped
      all_goals
        cases label
        · rw [worker_step_unheld rfl] at stepped
          exact stage_step_conserves stepped
        · cases stepped
        · cases stepped
  | releasing i =>
      cases label <;> cases stepped
      exact conserves_released

theorem environment_step_conserves {environment : Environment n} {after : Shared n}
    (stepped : environmentStep shared environment = some after) (phase : Phase n) :
    Conserves shared after phase phase := by
  cases environment with
  | enqueue query =>
      simp only [environmentStep] at stepped
      split at stepped <;> cases stepped
      refine ⟨fun _ => rfl, fun _ => rfl, fun _ => rfl, ?_⟩
      intro responder
      simp only [settledItems, List.countP_append, List.countP_singleton]
      by_cases fresh : shared.opened = responder
      · simp [fresh]
        omega
      · have order : responder < shared.opened + 1 ↔ responder < shared.opened := by omega
        simp [fresh, order]
  | close =>
      cases stepped
      exact ⟨fun _ => rfl, fun _ => rfl, fun _ => rfl, fun _ => rfl⟩
  | elapse nanos =>
      cases stepped
      exact ⟨fun _ => rfl, fun _ => rfl, fun _ => rfl, fun _ => rfl⟩
  | probeFailed i =>
      cases stepped
      apply conserves_entry i
      · rfl
      · exact fun _ _ => ⟨rfl, rfl⟩
      · rfl
      · rfl
      · exact fun _ => rfl
  | setRate i queriesPerSecond =>
      rcases Option.map_eq_some_iff.mp stepped with ⟨limiter, _, same⟩
      cases same
      apply conserves_entry i
      · rfl
      · exact fun _ _ => ⟨rfl, rfl⟩
      · rfl
      · rfl
      · exact fun _ => rfl

end Steps

section Reached

variable {Name : Type} {fromAscii : String → Except ProtoError Name}
variable {dispatch after : Dispatch n} {permits : ℕ}

def Steps (fromAscii : String → Except ProtoError Name) (before after : Dispatch n) : Prop :=
  ∃ event, dispatchStep fromAscii before event = some after

structure Accounted (permits : ℕ) (dispatch : Dispatch n) : Prop where
  permits : ∀ i, total (freePermits i) (mark (holds i)) dispatch = permits
  outcomes : ∀ i, total (unrecorded i) (mark (isInFlight i)) dispatch = 0
  items : ∀ responder, total (settledItems responder) (mark (carries responder)) dispatch = 0

theorem dispatch_step_sums (stepped : Steps fromAscii dispatch after) :
    (∀ i, (after.shared.pool i).resolver = (dispatch.shared.pool i).resolver) ∧
    (∀ i, total (freePermits i) (mark (holds i)) after =
      total (freePermits i) (mark (holds i)) dispatch) ∧
    (∀ i, total (unrecorded i) (mark (isInFlight i)) after =
      total (unrecorded i) (mark (isInFlight i)) dispatch) ∧
    (∀ responder, total (settledItems responder) (mark (carries responder)) after =
      total (settledItems responder) (mark (carries responder)) dispatch) := by
  rcases stepped with ⟨event, stepped⟩
  cases event with
  | worker index label =>
      have acted : act (workerStep fromAscii) dispatch index label = some after := stepped
      refine ⟨?_, ?_, ?_, ?_⟩
      · rcases act_some acted with ⟨phase, shared, moved, _, step, same⟩
        intro i
        rw [same]
        exact (worker_step_conserves step).resolver i
      · intro i
        apply act_total _ acted
        intro _ _ _ _ _ step
        exact (worker_step_conserves step).permits i
      · intro i
        apply act_total _ acted
        intro _ _ _ _ _ step
        exact (worker_step_conserves step).outcomes i
      · intro responder
        apply act_total _ acted
        intro _ _ _ _ _ step
        exact (worker_step_conserves step).items responder
  | around environment =>
      rcases Option.map_eq_some_iff.mp stepped with ⟨shared, step, same⟩
      have kept := environment_step_conserves step .idle
      subst same
      refine ⟨kept.resolver, ?_, ?_, ?_⟩
      · intro i
        have := kept.permits i
        simp only [total]
        omega
      · intro i
        have := kept.outcomes i
        simp only [total]
        omega
      · intro responder
        have := kept.items responder
        simp only [total]
        omega

theorem steps_accounted (stepped : Steps fromAscii dispatch after)
    (accounted : Accounted permits dispatch) : Accounted permits after := by
  rcases dispatch_step_sums stepped with ⟨_, free, owed, items⟩
  constructor
  · intro i
    rw [free i, accounted.permits i]
  · intro i
    rw [owed i, accounted.outcomes i]
  · intro responder
    rw [items responder, accounted.items responder]

theorem steps_length (stepped : Steps fromAscii dispatch after) :
    after.procs.length = dispatch.procs.length := by
  rcases stepped with ⟨event, stepped⟩
  cases event with
  | worker index label => exact act_length stepped
  | around environment =>
      rcases Option.map_eq_some_iff.mp stepped with ⟨shared, _, same⟩
      rw [← same]

theorem idle_marks (workers : ℕ) (kind : Phase n → Bool) (off : kind .idle = false) :
    ((List.replicate workers Phase.idle).map (mark kind)).sum = 0 := by
  simp [mark, off]

theorem accounted_new (pool : Fin n → ResolverHealth) (queueCapacity workers : ℕ)
    (full : ∀ i, (pool i).inflight = permits) (unused : ∀ i, (pool i).recorded = 0)
    (unsent : ∀ i, (pool i).attempted = 0) :
    Accounted permits (newDispatch pool queueCapacity workers) where
  permits i := by
    rw [total, newDispatch, idle_marks workers (holds i) rfl]
    simp [freePermits, full i]
  outcomes i := by
    rw [total, newDispatch, idle_marks workers (isInFlight i) rfl]
    simp [unrecorded, unused i, unsent i]
  items responder := by
    rw [total, newDispatch, idle_marks workers (carries responder) rfl]
    simp [settledItems]

def inFlight (dispatch : Dispatch n) (i : Fin n) : ℕ := headcount (isInFlight i) dispatch

theorem sum_mark (kind : Phase n → Bool) (procs : List (Phase n)) :
    (procs.map (mark kind)).sum = procs.countP kind :=
  sum_indicator kind procs

theorem accounted_outcomes (accounted : Accounted permits dispatch) (i : Fin n) :
    (dispatch.shared.pool i).attempted =
      (dispatch.shared.pool i).recorded + inFlight dispatch i := by
  have balance := accounted.outcomes i
  rw [total, sum_mark, unrecorded] at balance
  rw [inFlight, headcount]
  omega

theorem in_flight_held (phase : Phase n) (i : Fin n) (flying : isInFlight i phase = true) :
    holds i phase = true := by
  cases phase with
  | idle => cases flying
  | stopped => cases flying
  | working item stage =>
      cases stage
      case holding j hold =>
        simp only [isInFlight, Bool.and_eq_true] at flying
        exact flying.1
      all_goals cases flying
  | releasing j => cases flying

theorem accounted_permits (accounted : Accounted permits dispatch) (i : Fin n) :
    inFlight dispatch i ≤ permits := by
  have balance := accounted.permits i
  rw [total, sum_mark, freePermits] at balance
  have held : inFlight dispatch i ≤ dispatch.procs.countP (holds i) :=
    List.countP_mono_left fun phase _ flying => in_flight_held phase i flying
  omega

theorem in_flight_exclusive (phase : Phase n) (left right : Fin n)
    (here : isInFlight left phase = true) (there : isInFlight right phase = true) :
    left = right := by
  cases phase with
  | idle => cases here
  | stopped => cases here
  | working item stage =>
      cases stage
      case holding j hold =>
        simp only [isInFlight, Bool.and_eq_true, decide_eq_true_eq] at here there
        rw [here.1, there.1]
      all_goals cases here
  | releasing j => cases here

theorem in_flight_sum_le (dispatch : Dispatch n) :
    ∑ i, inFlight dispatch i ≤ dispatch.procs.length :=
  headcount_sum_le isInFlight in_flight_exclusive dispatch

def Finished (dispatch : Dispatch n) (responder : ℕ) : Prop :=
  responder < dispatch.shared.opened ∧
    (∀ item ∈ dispatch.shared.queue, item.responder ≠ responder) ∧
    ∀ phase ∈ dispatch.procs, carries responder phase = false

def responses (dispatch : Dispatch n) (responder : ℕ) : ℕ :=
  dispatch.shared.sent.countP fun answer => answer.1 = responder

theorem accounted_items (accounted : Accounted permits dispatch) (responder : ℕ) :
    responses dispatch responder ≤ 1 ∧
      (Finished dispatch responder ↔ responses dispatch responder = 1) := by
  have balance := accounted.items responder
  rw [total, sum_mark, settledItems] at balance
  have unqueued : (∀ item ∈ dispatch.shared.queue, item.responder ≠ responder) ↔
      dispatch.shared.queue.countP (fun item => item.responder = responder) = 0 := by
    simp [List.countP_eq_zero]
  have uncarried : (∀ phase ∈ dispatch.procs, carries responder phase = false) ↔
      dispatch.procs.countP (carries responder) = 0 := by
    simp [List.countP_eq_zero]
  rw [Finished, unqueued, uncarried, responses]
  split at balance <;> omega

theorem reached_accounted {start : Dispatch n}
    (reached : Relation.ReflTransGen (Steps fromAscii) start dispatch)
    (accounted : Accounted permits start) : Accounted permits dispatch :=
  reachable_invariant (Accounted permits)
    (fun _ _ kept stepped => steps_accounted stepped kept) reached accounted

theorem reached_length {start : Dispatch n}
    (reached : Relation.ReflTransGen (Steps fromAscii) start dispatch) :
    dispatch.procs.length = start.procs.length :=
  reachable_invariant (fun state => state.procs.length = start.procs.length)
    (fun _ _ kept stepped => (steps_length stepped).trans kept) reached rfl

theorem accounted_pool (resolvers : List SocketAddr) (config : BlastDNSConfig)
    (queueCapacity workers : ℕ) :
    Accounted (max config.maxInflightPerResolver 1)
      (newDispatch (newPool resolvers config) queueCapacity workers) :=
  accounted_new _ _ _ (fun _ => rfl) (fun _ => rfl) (fun _ => rfl)

/-- In every reachable state each entry's counters differ by its queries in
flight, these are within the permits and together within the workers, and an
item is finished exactly when its one response has been sent. -/
theorem dispatches_accounted (fromAscii : String → Except ProtoError Name)
    (resolvers : List SocketAddr) (config : BlastDNSConfig) (queueCapacity workers : ℕ)
    {state : Dispatch resolvers.length}
    (reached : Relation.ReflTransGen (Steps fromAscii)
      (newDispatch (newPool resolvers config) queueCapacity workers) state) :
    (∀ i, (state.shared.pool i).attempted =
        (state.shared.pool i).answered + (state.shared.pool i).empty +
          (state.shared.pool i).timeout + (state.shared.pool i).error + inFlight state i ∧
      inFlight state i ≤ max 1 config.maxInflightPerResolver) ∧
    ∑ i, inFlight state i ≤ workers ∧
    ((∀ i, inFlight state i = 0) → ∀ i, (state.shared.pool i).attempted =
      (state.shared.pool i).answered + (state.shared.pool i).empty +
        (state.shared.pool i).timeout + (state.shared.pool i).error) ∧
    ∀ responder, responses state responder ≤ 1 ∧
      (Finished state responder ↔ responses state responder = 1) := by
  have accounted := reached_accounted reached (accounted_pool resolvers config _ workers)
  refine ⟨?_, ?_, ?_, accounted_items accounted⟩
  · intro i
    refine ⟨accounted_outcomes accounted i, ?_⟩
    rw [max_comm]
    exact accounted_permits accounted i
  · have size := reached_length reached
    rw [newDispatch, List.length_replicate] at size
    rw [← size]
    exact in_flight_sum_le state
  · intro landed i
    have balance := accounted_outcomes accounted i
    rw [landed i] at balance
    exact balance

/-- One worker sends a query and a second one stays idle. -/
theorem dispatches_accounted_one_query :
    let valid : String → Except ProtoError Unit := fun _ => .ok ()
    let start : Dispatch 1 := newDispatch (newPool [.v4 ⟨127, 0, 0, 1⟩ 53] {}) 2 2
    ∃ state : Dispatch 1, Relation.ReflTransGen (Steps valid) start state ∧
      inFlight state 0 = 1 ∧ (state.shared.pool 0).attempted =
        (state.shared.pool 0).answered + (state.shared.pool 0).empty +
          (state.shared.pool 0).timeout + (state.shared.pool 0).error + 1 := by
  intro valid start
  let events : List (Event 1) :=
    .around (.enqueue ⟨"example.com", 1⟩) :: List.replicate 10 (.worker 0 .proceed)
  have sent : (replay valid events start).map (fun state => inFlight state 0) = some 1 := by
    decide
  rcases Option.map_eq_some_iff.mp sent with ⟨state, replayed, flying⟩
  have balance := (dispatches_accounted valid [.v4 ⟨127, 0, 0, 1⟩ 53] {} 2 2
    (replay_reaches replayed)).1 0
  refine ⟨state, replay_reaches replayed, flying, ?_⟩
  rw [balance.1, flying]

end Reached

end BlastDns.Accounting
