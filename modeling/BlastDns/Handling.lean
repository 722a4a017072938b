import BlastDns.Accounting

/-!
What one step of a worker does to the work: it takes the head of the queue, goes
on with what it carries, answers it or refuses it, gives a permit back, or stops.
Who looks at whole runs of the queue and the channels needs no more than this.
-/

namespace BlastDns.Handling

open Accounting Health NetText Worker

variable {n : ℕ} {Name : Type} {fromAscii : String → Except ProtoError Name}

/-- Why an item is answered without a query. -/
inductive Refusal (fromAscii : String → Except ProtoError Name) (query : QuerySpec) :
    BlastDNSError → Prop
  | noResolvers : Refusal fromAscii query .noResolvers
  | invalidHostname {source : ProtoError} (invalid : fromAscii query.host = .error source) :
      Refusal fromAscii query (.invalidHostname query.host source)

inductive Handles (fromAscii : String → Except ProtoError Name) (shared after : Shared n) :
    Phase n → Phase n → Prop
  | receives {item : WorkItem} (queued : shared.queue = item :: after.queue)
      (sent : after.sent = shared.sent) :
      Handles fromAscii shared after .idle (.working item .received)
  | stops (closed : shared.closed = true) (empty : shared.queue = []) (same : after = shared) :
      Handles fromAscii shared after .idle .stopped
  | works {item : WorkItem} {stage next : Stage n} (queue : after.queue = shared.queue)
      (sent : after.sent = shared.sent)
      (early : unheld stage = true → ∀ i hold, next = .holding i hold →
        hold = .reserved ∨ hold = .granted) :
      Handles fromAscii shared after (.working item stage) (.working item next)
  | refuses {item : WorkItem} {stage : Stage n} {err : BlastDNSError}
      (why : Refusal fromAscii item.query err) (queue : after.queue = shared.queue)
      (sent : after.sent = shared.sent ++ [(item.responder, .error err)]) :
      Handles fromAscii shared after (.working item stage) .idle
  | answers {item : WorkItem} {i : Fin n} {result : Answer} (queue : after.queue = shared.queue)
      (sent : after.sent = shared.sent ++ [(item.responder, result)]) :
      Handles fromAscii shared after (.working item (.holding i (.recorded result)))
        (.releasing i)
  | releases {i : Fin n} (queue : after.queue = shared.queue) (sent : after.sent = shared.sent) :
      Handles fromAscii shared after (.releasing i) .idle

/-- What only the surroundings change. -/
structure Framed (shared after : Shared n) : Prop where
  nowNs : after.nowNs = shared.nowNs
  closed : after.closed = shared.closed
  opened : after.opened = shared.opened
  queueCapacity : after.queueCapacity = shared.queueCapacity

theorem framed_refl (shared : Shared n) : Framed shared shared := ⟨rfl, rfl, rfl, rfl⟩

variable {shared after : Shared n} {old new : Phase n}

theorem after_scan_handles (fromAscii : String → Except ProtoError Name) (shared : Shared n)
    (item : WorkItem) (scan : Scan n) (stage : Stage n) :
    Handles fromAscii shared (afterScan shared item scan).1 (.working item stage)
      (afterScan shared item scan).2 ∧ Framed shared (afterScan shared item scan).1 := by
  rw [afterScan]
  split
  · exact ⟨.refuses .noResolvers rfl rfl, rfl, rfl, rfl, rfl⟩
  · split
    · exact ⟨.works rfl rfl (by simp), framed_refl shared⟩
    · split <;> exact ⟨.works rfl rfl (by simp), framed_refl shared⟩

theorem stage_step_handles {item : WorkItem} {stage : Stage n}
    (stepped : stageStep fromAscii shared item stage = some (after, new)) :
    Handles fromAscii shared after (.working item stage) new ∧ Framed shared after := by
  cases stage with
  | received =>
      simp only [stageStep] at stepped
      split at stepped <;> cases stepped
      · exact ⟨.works rfl rfl (by simp), framed_refl _⟩
      · rename_i source invalid
        exact ⟨.refuses (.invalidHostname invalid) rfl rfl, rfl, rfl, rfl, rfl⟩
  | pacing =>
      cases stepped
      exact ⟨.works rfl rfl (by simp), framed_refl _⟩
  | reserving =>
      simp only [stageStep] at stepped
      split at stepped <;> cases stepped
      · exact ⟨.refuses .noResolvers rfl rfl, rfl, rfl, rfl, rfl⟩
      · exact ⟨.works rfl rfl (by simp), rfl, rfl, rfl, rfl⟩
  | visiting scan =>
      simp only [stageStep] at stepped
      split at stepped
      · split at stepped <;> cases stepped <;>
          exact ⟨.works rfl rfl (by simp), framed_refl _⟩
      · rw [Option.some.injEq] at stepped
        have handled := after_scan_handles fromAscii shared item scan (.visiting scan)
        rwa [stepped] at handled
  | checking scan i =>
      simp only [stageStep] at stepped
      split at stepped <;> cases stepped <;>
        exact ⟨.works rfl rfl (by simp), framed_refl _⟩
  | trying scan i =>
      simp only [stageStep] at stepped
      split at stepped <;> cases stepped
      · exact ⟨.works rfl rfl (by simp), rfl, rfl, rfl, rfl⟩
      · exact ⟨.works rfl rfl (by simp), framed_refl _⟩
  | sleeping untilNs =>
      simp only [stageStep] at stepped
      split at stepped <;> cases stepped
      exact ⟨.works rfl rfl (by simp), framed_refl _⟩
  | waiting i =>
      rcases Option.map_eq_some_iff.mp stepped with ⟨taken, _, same⟩
      cases same
      exact ⟨.works rfl rfl (by simp), rfl, rfl, rfl, rfl⟩
  | holding i hold => cases stepped

theorem responds_recorded {health next : ResolverHealth} {nowNs : ℕ} {hold : Hold} {label : Label}
    {result : Answer} (stepped : holdStep health nowNs hold label = some (next, .respond result)) :
    hold = .recorded result := by
  unfold holdStep at stepped
  split at stepped
  all_goals try (split at stepped)
  all_goals cases stepped
  rfl

theorem hold_step_handles {item : WorkItem} {i : Fin n} {hold : Hold} {label : Label}
    (stepped : workerStep fromAscii shared (.working item (.holding i hold)) label =
      some (after, new)) :
    Handles fromAscii shared after (.working item (.holding i hold)) new ∧ Framed shared after := by
  rcases Option.map_eq_some_iff.mp stepped with ⟨⟨health, held⟩, moved, same⟩
  cases held with
  | keep next =>
      cases same
      exact ⟨.works rfl rfl (by simp [unheld]), rfl, rfl, rfl, rfl⟩
  | drop =>
      cases same
      exact ⟨.works rfl rfl (by simp [unheld]), rfl, rfl, rfl, rfl⟩
  | respond result =>
      cases responds_recorded moved
      cases same
      exact ⟨.answers rfl rfl, rfl, rfl, rfl, rfl⟩

/-- The inversion of a worker's step, as far as the work goes. -/
theorem worker_step_handles {label : Label}
    (stepped : workerStep fromAscii shared old label = some (after, new)) :
    Handles fromAscii shared after old new ∧ Framed shared after := by
  cases old with
  | idle =>
      cases label with
      | proceed =>
          simp only [workerStep] at stepped
          split at stepped
          · rename_i item rest waiting
            cases stepped
            exact ⟨.receives waiting rfl, rfl, rfl, rfl, rfl⟩
          · rename_i empty
            split at stepped <;> cases stepped
            rename_i closed
            exact ⟨.stops closed empty rfl, framed_refl _⟩
      | answer result => cases stepped
      | refetched full => cases stepped
  | stopped => cases stepped
  | working item stage =>
      cases stage
      case holding i hold => exact hold_step_handles stepped
      all_goals
        cases label
        · rw [worker_step_unheld rfl] at stepped
          exact stage_step_handles stepped
        · cases stepped
        · cases stepped
  | releasing i =>
      cases label <;> cases stepped
      exact ⟨.releases rfl rfl, rfl, rfl, rfl, rfl⟩

/-- The surroundings add an item to an open queue, or leave the work alone. -/
inductive Surrounds (shared after : Shared n) : Environment n → Prop
  | enqueues {query : QuerySpec} (accepting : shared.closed = false)
      (room : shared.queue.length < shared.queueCapacity)
      (same : after = { shared with
        queue := shared.queue ++ [{ query := query, responder := shared.opened }]
        opened := shared.opened + 1 }) :
      Surrounds shared after (.enqueue query)
  | leaves {environment : Environment n} (idle : ∀ query, environment ≠ .enqueue query)
      (queue : after.queue = shared.queue) (sent : after.sent = shared.sent)
      (opened : after.opened = shared.opened)
      (closed : shared.closed = true → after.closed = true)
      (later : shared.nowNs ≤ after.nowNs)
      (queueCapacity : after.queueCapacity = shared.queueCapacity) :
      Surrounds shared after environment

theorem environment_step_surrounds {environment : Environment n}
    (stepped : environmentStep shared environment = some after) :
    Surrounds shared after environment := by
  cases environment with
  | enqueue query =>
      simp only [environmentStep] at stepped
      split at stepped <;> cases stepped
      rename_i possible
      simp only [Bool.or_eq_true, decide_eq_true_eq, not_or, Bool.not_eq_true, not_le] at possible
      exact .enqueues possible.1 possible.2 rfl
  | close =>
      cases stepped
      exact .leaves (by simp) rfl rfl rfl (fun _ => rfl) le_rfl rfl
  | elapse nanos =>
      cases stepped
      exact .leaves (by simp) rfl rfl rfl id (Nat.le_add_right _ _) rfl
  | probeFailed i =>
      cases stepped
      exact .leaves (by simp) rfl rfl rfl id le_rfl rfl
  | setRate i queriesPerSecond =>
      rcases Option.map_eq_some_iff.mp stepped with ⟨limiter, _, same⟩
      cases same
      exact .leaves (by simp) rfl rfl rfl id le_rfl rfl

end BlastDns.Handling
