import BlastDns.GlobalCap

/-!
`stats` of `src/health.rs`, one load to a step. A snapshot is not atomic: workers
go on between two of its loads. The counters only grow, so each load lies between
what its counter was when the snapshot was begun and what it is now, and that is
enough to say how far a snapshot can be off.
-/

namespace BlastDns.Stats

open Accounting Client Config GlobalCap Health Limiter NetText Politeness Runs Worker

structure ResolverStats where
  resolver : SocketAddr
  attempted : ℕ := 0
  answered : ℕ := 0
  empty : ℕ := 0
  timeout : ℕ := 0
  error : ℕ := 0
  rttMeanUs : ℕ := 0
  rttMinUs : ℕ := 0
  purgatoryEntries : ℕ := 0
  truncated : ℕ := 0
  rateQps : Option ℚ := none
  deriving DecidableEq

/-- The loads `stats` makes of a resolver's atomics. -/
inductive Load where
  | attempted
  | answered
  | empty
  | timeout
  | error
  | rttMeanUs
  | rttMinUs
  | purgatoryEntries
  | truncated
  | rateQps
  deriving DecidableEq

/-- In the order of the source. -/
def statsLoads : List Load :=
  [.attempted, .answered, .empty, .timeout, .error, .rttMeanUs, .rttMinUs, .purgatoryEntries,
    .truncated, .rateQps]

def Load.read (health : ResolverHealth) (stats : ResolverStats) : Load → ResolverStats
  | .attempted => { stats with attempted := health.attempted }
  | .answered => { stats with answered := health.answered }
  | .empty => { stats with empty := health.empty }
  | .timeout => { stats with timeout := health.timeout }
  | .error => { stats with error := health.error }
  | .rttMeanUs => { stats with rttMeanUs := health.rttEwmaUs }
  | .rttMinUs => { stats with rttMinUs := health.rttMinUs }
  | .purgatoryEntries => { stats with purgatoryEntries := health.purgatoryEntries }
  | .truncated => { stats with truncated := health.truncated }
  | .rateQps =>
      let rate := health.limiter.rate
      { stats with rateQps := if rate < unlimitedQps then some rate else none }

/-- `stats` when nothing moves meanwhile. -/
def stats (health : ResolverHealth) : ResolverStats :=
  statsLoads.foldl (Load.read health) { resolver := health.resolver }

def ResolverStats.recorded (stats : ResolverStats) : ℕ :=
  stats.answered + stats.empty + stats.timeout + stats.error

section Grows

/-- The loads of counters that are only ever incremented. -/
inductive Tally where
  | attempted
  | answered
  | empty
  | timeout
  | error
  | purgatoryEntries
  | truncated

namespace Tally

def load : Tally → Load
  | .attempted => .attempted
  | .answered => .answered
  | .empty => .empty
  | .timeout => .timeout
  | .error => .error
  | .purgatoryEntries => .purgatoryEntries
  | .truncated => .truncated

def of (health : ResolverHealth) : Tally → ℕ
  | .attempted => health.attempted
  | .answered => health.answered
  | .empty => health.empty
  | .timeout => health.timeout
  | .error => health.error
  | .purgatoryEntries => health.purgatoryEntries
  | .truncated => health.truncated

def seen (stats : ResolverStats) : Tally → ℕ
  | .attempted => stats.attempted
  | .answered => stats.answered
  | .empty => stats.empty
  | .timeout => stats.timeout
  | .error => stats.error
  | .purgatoryEntries => stats.purgatoryEntries
  | .truncated => stats.truncated

end Tally

/-- A load sets what it loads and nothing else. -/
theorem seen_read (health : ResolverHealth) (stats : ResolverStats) (load : Load) (tally : Tally) :
    tally.seen (load.read health stats) =
      if tally.load = load then tally.of health else tally.seen stats := by
  cases tally <;> cases load <;> rfl

structure Grows (before after : ResolverHealth) : Prop where
  tallies : ∀ tally : Tally, tally.of before ≤ tally.of after
  resolver : after.resolver = before.resolver
  requestTimeoutNs : after.requestTimeoutNs = before.requestTimeoutNs

theorem grows_refl (health : ResolverHealth) : Grows health health :=
  ⟨fun _ => le_rfl, rfl, rfl⟩

theorem Grows.trans {first second third : ResolverHealth} (early : Grows first second)
    (late : Grows second third) : Grows first third where
  tallies tally := (early.tallies tally).trans (late.tallies tally)
  resolver := late.resolver.trans early.resolver
  requestTimeoutNs := late.requestTimeoutNs.trans early.requestTimeoutNs

/-- What a worker makes of an entry: it leaves the pacing to the controller. -/
structure Advances (before after : ResolverHealth) : Prop extends Grows before after where
  limiter : after.limiter = before.limiter

theorem advances_refl (health : ResolverHealth) : Advances health health :=
  ⟨grows_refl health, rfl⟩

theorem Advances.trans {first second third : ResolverHealth} (early : Advances first second)
    (late : Advances second third) : Advances first third :=
  ⟨early.toGrows.trans late.toGrows, late.limiter.trans early.limiter⟩

/-- What leaves the counters alone. -/
theorem grows_same {before after : ResolverHealth}
    (same : ∀ tally : Tally, tally.of after = tally.of before)
    (resolver : after.resolver = before.resolver)
    (requestTimeoutNs : after.requestTimeoutNs = before.requestTimeoutNs) : Grows before after :=
  ⟨fun tally => (same tally).ge, resolver, requestTimeoutNs⟩

variable (health : ResolverHealth)

theorem record_dispatch_advances : Advances health health.recordDispatch := by
  refine ⟨⟨?_, rfl, rfl⟩, rfl⟩
  intro tally
  cases tally <;> simp [Tally.of, ResolverHealth.recordDispatch]

theorem record_truncated_advances : Advances health health.recordTruncated := by
  refine ⟨⟨?_, rfl, rfl⟩, rfl⟩
  intro tally
  cases tally <;> simp [Tally.of, ResolverHealth.recordTruncated]

theorem record_rtt_advances (rttUs nowNs : ℕ) :
    Advances health (health.recordRtt rttUs nowNs) := by
  unfold ResolverHealth.recordRtt
  dsimp only
  split
  · exact ⟨grows_same (fun tally => by cases tally <;> rfl) rfl rfl, rfl⟩
  · split <;> exact ⟨grows_same (fun tally => by cases tally <;> rfl) rfl rfl, rfl⟩

theorem record_response_advances (rttUs nowNs : ℕ) (hadAnswers : Bool) :
    Advances health (health.recordResponse rttUs nowNs hadAnswers) := by
  rw [ResolverHealth.recordResponse]
  apply Advances.trans _ (record_rtt_advances _ _ _)
  cases hadAnswers
  all_goals
    refine ⟨⟨?_, rfl, rfl⟩, rfl⟩
    intro tally
    cases tally <;> simp [Tally.of, ResolverHealth.decayErrors]

theorem record_error_advances (isTimeout : Bool) (nowNs : ℕ) :
    Advances health (health.recordError isTimeout nowNs) := by
  unfold ResolverHealth.recordError
  cases isTimeout <;> simp only [Bool.false_eq_true, if_true, if_false] <;> split_ifs
  all_goals
    refine ⟨⟨?_, rfl, rfl⟩, rfl⟩
    intro tally
    cases tally <;> simp [Tally.of]

end Grows

section Steps

variable {n : ℕ} {Name : Type} {fromAscii : String → Except ProtoError Name}
variable {shared after : Shared n}

theorem hold_step_advances {health next : ResolverHealth} {nowNs : ℕ} {hold : Hold} {label : Label}
    {held : Held} (stepped : holdStep health nowNs hold label = some (next, held)) :
    Advances health next := by
  unfold holdStep at stepped
  split at stepped
  · cases stepped
    exact advances_refl health
  · cases stepped
    exact advances_refl health
  · cases stepped
    exact advances_refl health
  · cases stepped
    exact advances_refl health
  · cases stepped
    exact record_dispatch_advances health
  · cases stepped
    exact advances_refl health
  · split at stepped
    · cases stepped
      exact record_truncated_advances health
    · cases stepped
      exact record_response_advances health _ _ _
  · cases stepped
    exact record_error_advances health _ _
  · cases stepped
    exact advances_refl health
  · cases stepped
    exact record_response_advances health _ _ _
  · cases stepped
    exact advances_refl health
  · cases stepped

/-- Every counter of the pool after is at least what it was before. -/
def PoolGrows (before after : Shared n) : Prop := ∀ i, Grows (before.pool i) (after.pool i)

def PoolAdvances (before after : Shared n) : Prop := ∀ i, Advances (before.pool i) (after.pool i)

theorem pool_advances_refl (shared : Shared n) : PoolAdvances shared shared :=
  fun i => advances_refl (shared.pool i)

theorem pool_advances_same (same : after.pool = shared.pool) : PoolAdvances shared after := by
  intro i
  rw [same]
  exact advances_refl (shared.pool i)

theorem pool_advances_entry {i : Fin n} {health : ResolverHealth}
    (grown : Advances (shared.pool i) health) : PoolAdvances shared (shared.setResolver i health) := by
  intro j
  by_cases here : j = i
  · subst here
    rw [set_resolver_same]
    exact grown
  · rw [set_resolver_other shared here]
    exact advances_refl (shared.pool j)

theorem after_scan_pool (shared : Shared n) (item : WorkItem) (scan : Scan n) :
    (afterScan shared item scan).1.pool = shared.pool := by
  rw [afterScan]
  split
  · rfl
  · split
    · rfl
    · split <;> rfl

theorem acquired_advances {health taken : ResolverHealth} (acquired : health.tryAcquire = some taken) :
    Advances health taken := by
  rw [(try_acquire_some acquired).2]
  exact ⟨grows_same (fun tally => by cases tally <;> rfl) rfl rfl, rfl⟩

theorem released_advances (health : ResolverHealth) : Advances health health.release :=
  ⟨grows_same (fun tally => by cases tally <;> rfl) rfl rfl, rfl⟩

theorem stage_step_advances {item : WorkItem} {stage : Stage n} {new : Phase n}
    (stepped : stageStep fromAscii shared item stage = some (after, new)) :
    PoolAdvances shared after := by
  cases stage with
  | received =>
      simp only [stageStep] at stepped
      split at stepped <;> cases stepped <;> exact pool_advances_same rfl
  | pacing =>
      cases stepped
      exact pool_advances_refl _
  | reserving =>
      simp only [stageStep] at stepped
      split at stepped <;> cases stepped <;> exact pool_advances_same rfl
  | visiting scan =>
      simp only [stageStep] at stepped
      split at stepped
      · split at stepped <;> cases stepped <;> exact pool_advances_refl _
      · rw [Option.some.injEq] at stepped
        have scanned := after_scan_pool shared item scan
        rw [stepped] at scanned
        exact pool_advances_same scanned
  | checking scan i =>
      simp only [stageStep] at stepped
      split at stepped <;> cases stepped <;> exact pool_advances_refl _
  | trying scan i =>
      simp only [stageStep] at stepped
      split at stepped
      · rename_i taken acquired
        cases stepped
        exact pool_advances_entry (acquired_advances acquired)
      · cases stepped
        exact pool_advances_refl _
  | sleeping untilNs =>
      simp only [stageStep] at stepped
      split at stepped <;> cases stepped
      exact pool_advances_refl _
  | waiting i =>
      rcases Option.map_eq_some_iff.mp stepped with ⟨taken, acquired, same⟩
      cases same
      exact pool_advances_entry (acquired_advances acquired)
  | holding i hold => cases stepped

theorem held_step_advances {item : WorkItem} {i : Fin n} {hold : Hold} {label : Label}
    {new : Phase n}
    (stepped : workerStep fromAscii shared (.working item (.holding i hold)) label =
      some (after, new)) :
    PoolAdvances shared after := by
  rcases Option.map_eq_some_iff.mp stepped with ⟨⟨health, held⟩, moved, same⟩
  have grown := hold_step_advances moved
  cases held with
  | keep next =>
      cases same
      exact pool_advances_entry grown
  | drop =>
      cases same
      exact pool_advances_entry (grown.trans (released_advances health))
  | respond result =>
      cases same
      exact pool_advances_entry grown

theorem worker_step_advances {old new : Phase n} {label : Label}
    (stepped : workerStep fromAscii shared old label = some (after, new)) :
    PoolAdvances shared after := by
  cases old with
  | idle =>
      cases label with
      | proceed =>
          simp only [workerStep] at stepped
          split at stepped
          · cases stepped
            exact pool_advances_same rfl
          · split at stepped <;> cases stepped
            exact pool_advances_refl _
      | answer result => cases stepped
      | refetched full => cases stepped
  | stopped => cases stepped
  | working item stage =>
      cases stage
      case holding i hold => exact held_step_advances stepped
      all_goals
        cases label
        · rw [worker_step_unheld rfl] at stepped
          exact stage_step_advances stepped
        · cases stepped
        · cases stepped
  | releasing i =>
      cases label <;> cases stepped
      exact pool_advances_entry (released_advances _)

theorem environment_step_advances {environment : Environment n}
    (stepped : environmentStep shared environment = some after)
    (unpaced : ∀ i queriesPerSecond, environment ≠ .setRate i queriesPerSecond) :
    PoolAdvances shared after := by
  cases environment with
  | enqueue query =>
      simp only [environmentStep] at stepped
      split at stepped <;> cases stepped
      exact pool_advances_same rfl
  | close =>
      cases stepped
      exact pool_advances_same rfl
  | elapse nanos =>
      cases stepped
      exact pool_advances_same rfl
  | probeFailed i =>
      cases stepped
      exact pool_advances_entry ⟨grows_same (fun tally => by cases tally <;> rfl) rfl rfl, rfl⟩
  | setRate i queriesPerSecond => exact absurd rfl (unpaced i queriesPerSecond)

theorem set_limiter_grows (i : Fin n) (limiter : RateLimiter) :
    PoolGrows shared (shared.setResolver i { shared.pool i with limiter := limiter }) := by
  intro j
  by_cases here : j = i
  · subst here
    rw [set_resolver_same]
    exact grows_same (fun tally => by cases tally <;> rfl) rfl rfl
  · rw [set_resolver_other shared here]
    exact grows_refl (shared.pool j)

theorem dispatch_step_advances {dispatch later : Dispatch n} {event : Event n}
    (stepped : dispatchStep fromAscii dispatch event = some later)
    (unpaced : ∀ i queriesPerSecond, event ≠ .around (.setRate i queriesPerSecond)) :
    PoolAdvances dispatch.shared later.shared := by
  cases event with
  | worker index label =>
      rcases Crew.act_some stepped with ⟨old, shared, new, _, moved, rfl⟩
      exact worker_step_advances moved
  | around environment =>
      rcases Option.map_eq_some_iff.mp stepped with ⟨shared, moved, rfl⟩
      apply environment_step_advances moved
      rintro i queriesPerSecond rfl
      exact unpaced i queriesPerSecond rfl

theorem dispatch_step_grows {dispatch later : Dispatch n} {event : Event n}
    (stepped : dispatchStep fromAscii dispatch event = some later) :
    PoolGrows dispatch.shared later.shared := by
  by_cases paced : ∃ i queriesPerSecond, event = .around (.setRate i queriesPerSecond)
  · rcases paced with ⟨i, queriesPerSecond, rfl⟩
    rcases Option.map_eq_some_iff.mp stepped with ⟨shared, moved, rfl⟩
    rcases Option.map_eq_some_iff.mp moved with ⟨limiter, _, rfl⟩
    exact set_limiter_grows i limiter
  · have advances := dispatch_step_advances stepped fun i queriesPerSecond same =>
      paced ⟨i, queriesPerSecond, same⟩
    exact fun i => (advances i).toGrows

variable {config : BlastDNSConfig} {system : System n}

/-- An action of the system is one of the dispatch, or leaves the shared state alone. -/
theorem system_step_dispatch {later : System n} {action : Action n}
    (stepped : systemStep fromAscii config system action = some later) :
    later.dispatch.shared = system.dispatch.shared ∨
      ∃ event, dispatchStep fromAscii system.dispatch event = some later.dispatch ∧
        ∀ environment, event = .around environment →
          action = .around environment ∨ ∃ query, environment = .enqueue query := by
  have dispatched : ∀ event, dispatchTo fromAscii system event = some later →
      dispatchStep fromAscii system.dispatch event = some later.dispatch := by
    intro event dispatched
    rcases Option.map_eq_some_iff.mp dispatched with ⟨dispatch, moved, rfl⟩
    exact moved
  cases action with
  | clone handle =>
      rcases Option.map_eq_some_iff.mp stepped with ⟨cell, _, rfl⟩
      exact .inl rfl
  | startInit handle =>
      simp only [systemStep] at stepped
      split at stepped <;> cases stepped
      exact .inl rfl
  | cancelInit handle =>
      simp only [systemStep] at stepped
      split at stepped <;> cases stepped
      exact .inl rfl
  | finishInit handle =>
      simp only [systemStep] at stepped
      split at stepped <;> cases stepped
      exact .inl rfl
  | submit handle query =>
      simp only [systemStep] at stepped
      split at stepped
      · refine .inr ⟨_, dispatched _ stepped, ?_⟩
        rintro environment same
        cases same
        exact .inr ⟨query, rfl⟩
      · cases stepped
  | worker index label => exact .inr ⟨_, dispatched _ stepped, by simp⟩
  | around environment =>
      refine .inr ⟨.around environment, ?_, ?_⟩
      · cases environment
        case enqueue => cases stepped
        all_goals exact dispatched _ stepped
      · intro other same
        cases same
        exact .inl rfl

theorem system_step_grows {later : System n} (stepped : SystemSteps fromAscii config system later) :
    PoolGrows system.dispatch.shared later.dispatch.shared := by
  rcases stepped with ⟨action, stepped⟩
  rcases system_step_dispatch stepped with same | ⟨event, moved, _⟩
  · rw [same]
    exact fun i => grows_refl _
  · exact dispatch_step_grows moved

end Steps

section Readings

/-- A call of `stats` on one resolver: what it has loaded and what it has yet to. -/
structure Reading where
  left : List Load := statsLoads
  stats : ResolverStats
  deriving DecidableEq

def Reading.next (health : ResolverHealth) (reading : Reading) : Option Reading :=
  match reading.left with
  | [] => none
  | load :: rest => some { left := rest, stats := load.read health reading.stats }

/-- The count as loaded, or as it would be loaded now. -/
def Reading.count (now : ResolverHealth) (reading : Reading) (tally : Tally) : ℕ :=
  if tally.load ∈ reading.left then tally.of now else tally.seen reading.stats

/-- What has been loaded lies between `least` and the present, and covers the attempts
it shows but for those that a permit stands for. -/
structure Within (permits : ℕ) (least : Tally → ℕ) (now : ResolverHealth) (reading : Reading) :
    Prop where
  rest : reading.left <:+ statsLoads
  below : ∀ tally, least tally ≤ reading.count now tally
  above : ∀ tally, reading.count now tally ≤ tally.of now
  covered : Load.attempted ∉ reading.left → reading.stats.attempted ≤
    reading.count now .answered + reading.count now .empty + reading.count now .timeout +
      reading.count now .error + permits

variable {permits : ℕ} {least : Tally → ℕ} {now later : ResolverHealth} {reading after : Reading}

theorem within_start {stats : ResolverStats} (below : ∀ tally : Tally, least tally ≤ tally.of now) :
    Within permits least now { stats := stats } := by
  have all : ∀ tally : Tally, tally.load ∈ statsLoads := by
    intro tally
    cases tally <;> decide
  have counted : ∀ tally, Reading.count now { stats := stats } tally = tally.of now :=
    fun tally => if_pos (all tally)
  refine ⟨List.suffix_rfl, ?_, ?_, ?_⟩
  · intro tally
    rw [counted]
    exact below tally
  · exact fun tally => (counted tally).le
  · exact fun loaded => absurd (all .attempted) loaded

theorem count_grows (grown : Grows now later) (tally : Tally) :
    reading.count now tally ≤ reading.count later tally := by
  rw [Reading.count, Reading.count]
  split
  · exact grown.tallies tally
  · exact le_rfl

/-- Between two loads the workers may go on. -/
theorem within_grows (within : Within permits least now reading) (grown : Grows now later) :
    Within permits least later reading where
  rest := within.rest
  below tally := (within.below tally).trans (count_grows grown tally)
  above tally := by
    have known := within.above tally
    rw [Reading.count] at known ⊢
    split at known
    · rename_i unread
      rw [if_pos unread]
    · rename_i loaded
      rw [if_neg loaded]
      exact known.trans (grown.tallies tally)
  covered loaded := by
    have known := within.covered loaded
    have grows : ∀ tally, reading.count now tally ≤ reading.count later tally :=
      fun tally => count_grows grown tally
    have answered := grows .answered
    have empty := grows .empty
    have timeout := grows .timeout
    have error := grows .error
    omega

theorem loads_once : statsLoads.Nodup := by decide

theorem next_some (moved : reading.next now = some after) :
    ∃ load, reading.left = load :: after.left ∧ after.stats = load.read now reading.stats := by
  rw [Reading.next] at moved
  split at moved
  · cases moved
  · rename_i load rest left
    cases moved
    exact ⟨load, left, rfl⟩

/-- A load does not change what the snapshot would show. -/
theorem count_next (within : Within permits least now reading)
    (moved : reading.next now = some after) (tally : Tally) :
    after.count now tally = reading.count now tally := by
  rcases next_some moved with ⟨load, left, stats⟩
  have once : load ∉ after.left := by
    have unique := within.rest.sublist.nodup loads_once
    rw [left] at unique
    exact (List.nodup_cons.mp unique).1
  rw [Reading.count, Reading.count, left, stats, seen_read]
  by_cases here : tally.load = load
  · rw [here, if_neg once, if_pos rfl, if_pos List.mem_cons_self]
  · simp only [here, if_false, List.mem_cons, false_or]

theorem within_next (within : Within permits least now reading)
    (moved : reading.next now = some after) (covered : now.attempted ≤ now.recorded + permits) :
    Within permits least now after := by
  have same := count_next within moved
  rcases next_some moved with ⟨load, left, stats⟩
  refine ⟨?_, ?_, ?_, ?_⟩
  · exact (left ▸ List.suffix_cons load after.left).trans within.rest
  · intro tally
    rw [same]
    exact within.below tally
  · intro tally
    rw [same]
    exact within.above tally
  · intro loaded
    rw [same, same, same, same]
    by_cases first : load = .attempted
    · -- nothing has been loaded before it, so the buckets count as they are now
      subst first
      have fresh : ∀ tally : Tally, tally.load ∈ reading.left := by
        rcases within.rest with ⟨done, split⟩
        have start : done = [] := by
          cases done with
          | nil => rfl
          | cons other others =>
              rw [left] at split
              have twice := loads_once
              rw [← split] at twice
              have head : other = .attempted := (List.cons.inj split).1
              subst head
              have known := (List.nodup_cons.mp twice).1
              exact absurd (List.mem_append_right _ List.mem_cons_self) known
        rw [start, List.nil_append] at split
        intro tally
        rw [split]
        cases tally <;> decide
      have counted : ∀ tally, reading.count now tally = tally.of now :=
        fun tally => if_pos (fresh tally)
      rw [counted, counted, counted, counted, stats]
      exact covered
    · have unread : Load.attempted ∉ reading.left := by
        rw [left, List.mem_cons, not_or]
        exact ⟨Ne.symm first, loaded⟩
      have kept : after.stats.attempted = reading.stats.attempted := by
        rw [stats]
        exact (seen_read now reading.stats load .attempted).trans (if_neg (Ne.symm first))
      rw [kept]
      exact within.covered unread

/-- A snapshot that has been taken. -/
theorem within_done (within : Within permits least now reading) (done : reading.left = []) :
    (∀ tally, least tally ≤ tally.seen reading.stats ∧ tally.seen reading.stats ≤ tally.of now) ∧
      reading.stats.attempted ≤ reading.stats.recorded + permits := by
  have counted : ∀ tally, reading.count now tally = tally.seen reading.stats := by
    intro tally
    rw [Reading.count, done]
    exact if_neg List.not_mem_nil
  constructor
  · intro tally
    rw [← counted]
    exact ⟨within.below tally, within.above tally⟩
  · have covered := within.covered (by rw [done]; exact List.not_mem_nil)
    rw [counted, counted, counted, counted] at covered
    exact covered

end Readings

section Surveys

variable {n : ℕ}

/-- A call of `ResolverPool::stats`: the resolvers left, the reading of the first of
them once it is begun, and the snapshots of those before it. -/
structure Survey (n : ℕ) where
  left : List (Fin n) := List.finRange n
  reading : Option Reading := none
  taken : List ResolverStats := []

def Survey.next (pool : Fin n → ResolverHealth) (survey : Survey n) : Option (Survey n) :=
  match survey.left, survey.reading with
  | [], _ => none
  | i :: _, none =>
      some { survey with reading := some { stats := { resolver := (pool i).resolver } } }
  | i :: rest, some reading =>
      match reading.next (pool i) with
      | some next => some { survey with reading := some next }
      | none => some { left := rest, taken := survey.taken ++ [reading.stats] }

inductive SurveyEvent (n : ℕ) where
  | system (action : Action n)
  | load

def surveyStep {Name : Type} (fromAscii : String → Except ProtoError Name)
    (config : BlastDNSConfig) (state : System n × Survey n) :
    SurveyEvent n → Option (System n × Survey n)
  | .system action => (systemStep fromAscii config state.1 action).map fun system => (system, state.2)
  | .load =>
      (state.2.next state.1.dispatch.shared.pool).map fun survey => (state.1, survey)

def SurveySteps {Name : Type} (fromAscii : String → Except ProtoError Name)
    (config : BlastDNSConfig) (before after : System n × Survey n) : Prop :=
  ∃ event, surveyStep fromAscii config before event = some after

/-- How a snapshot compares with its resolver before and after it was taken. -/
structure Shows (permits : ℕ) (before after : ResolverHealth) (stats : ResolverStats) : Prop where
  resolver : stats.resolver = before.resolver
  between : ∀ tally : Tally, tally.of before ≤ tally.seen stats ∧ tally.seen stats ≤ tally.of after
  covered : stats.attempted ≤ stats.recorded + permits

structure Surveys (permits : ℕ) (first : System n) (state : System n × Survey n) : Prop where
  accounted : Accounted permits state.1.dispatch
  grown : PoolGrows first.dispatch.shared state.1.dispatch.shared
  split : ∃ done, List.finRange n = done ++ state.2.left ∧
    List.Forall₂ (fun i stats => Shows permits (first.dispatch.shared.pool i)
      (state.1.dispatch.shared.pool i) stats) done state.2.taken
  reading : ∀ i ∈ state.2.left.head?, ∀ reading ∈ state.2.reading,
    reading.stats.resolver = (first.dispatch.shared.pool i).resolver ∧
      Within permits (Tally.of (first.dispatch.shared.pool i)) (state.1.dispatch.shared.pool i)
        reading

variable {permits : ℕ} {Name : Type} {fromAscii : String → Except ProtoError Name}
variable {config : BlastDNSConfig} {first : System n} {state after : System n × Survey n}

theorem read_resolver (health : ResolverHealth) (stats : ResolverStats) (load : Load) :
    (load.read health stats).resolver = stats.resolver := by
  cases load <;> rfl

theorem shows_grows {before now later : ResolverHealth} {stats : ResolverStats}
    (shown : Shows permits before now stats) (grown : Grows now later) :
    Shows permits before later stats where
  resolver := shown.resolver
  between tally := ⟨(shown.between tally).1, (shown.between tally).2.trans (grown.tallies tally)⟩
  covered := shown.covered

theorem survey_system_step {system : System n}
    (stepped : SystemSteps fromAscii config state.1 system)
    (surveys : Surveys permits first state) : Surveys permits first (system, state.2) := by
  have grown := system_step_grows stepped
  refine ⟨system_step_accounted stepped surveys.accounted, ?_, ?_, ?_⟩
  · exact fun i => (surveys.grown i).trans (grown i)
  · rcases surveys.split with ⟨done, split, shown⟩
    refine ⟨done, split, shown.imp ?_⟩
    intro i stats known
    exact shows_grows known (grown i)
  · intro i head reading begun
    rcases surveys.reading i head reading begun with ⟨resolver, within⟩
    exact ⟨resolver, within_grows within (grown i)⟩

theorem accounted_covered {dispatch : Dispatch n} (accounted : Accounted permits dispatch)
    (i : Fin n) :
    (dispatch.shared.pool i).attempted ≤ (dispatch.shared.pool i).recorded + permits := by
  rw [accounted_outcomes accounted i]
  exact Nat.add_le_add_left (accounted_permits accounted i) _

theorem survey_load {survey : Survey n}
    (loaded : state.2.next state.1.dispatch.shared.pool = some survey)
    (surveys : Surveys permits first state) : Surveys permits first (state.1, survey) := by
  rcases surveys with ⟨accounted, grown, split, begun⟩
  rw [Survey.next] at loaded
  split at loaded
  · cases loaded
  · rename_i i rest left fresh
    cases loaded
    refine ⟨accounted, grown, split, ?_⟩
    intro j head reading start
    cases start
    rw [left] at head
    cases head
    exact ⟨(grown i).resolver, within_start fun tally => (grown i).tallies tally⟩
  · rename_i i rest reading left started
    rcases begun i (by rw [left]; rfl) reading started with ⟨resolver, within⟩
    split at loaded
    · rename_i next moved
      cases loaded
      refine ⟨accounted, grown, split, ?_⟩
      intro j head later same
      cases same
      rw [left] at head
      cases head
      rcases next_some moved with ⟨load, _, stats⟩
      refine ⟨?_, within_next within moved (accounted_covered accounted i)⟩
      rw [stats, read_resolver, resolver]
    · rename_i finished
      cases loaded
      have done : reading.left = [] := by
        cases loads : reading.left with
        | nil => rfl
        | cons load others => simp [Reading.next, loads] at finished
      rcases within_done within done with ⟨between, covered⟩
      rcases split with ⟨before, parts, shown⟩
      refine ⟨accounted, grown, ⟨before ++ [i], ?_, ?_⟩, by simp⟩
      · rw [parts, left, List.append_assoc]
        rfl
      · exact List.rel_append shown (.cons ⟨resolver, between, covered⟩ .nil)

theorem survey_reached (taken : Relation.ReflTransGen (SurveySteps fromAscii config)
    (first, {}) state) (accounted : Accounted permits first.dispatch) :
    Surveys permits first state := by
  apply reachable_invariant (Surveys permits first) _ taken
  · refine ⟨accounted, fun i => grows_refl _, ⟨[], rfl, .nil⟩, ?_⟩
    intro i _ reading begun
    cases begun
  · rintro before after surveys ⟨event, stepped⟩
    cases event with
    | system action =>
        rcases Option.map_eq_some_iff.mp stepped with ⟨system, moved, rfl⟩
        exact survey_system_step ⟨action, moved⟩ surveys
    | load =>
        rcases Option.map_eq_some_iff.mp stepped with ⟨survey, moved, rfl⟩
        exact survey_load moved surveys

theorem reached_system_accounted {client : BlastDNSClient}
    {system : System client.resolvers.length}
    (reached : Relation.ReflTransGen (SystemSteps fromAscii client.config) (newSystem client)
      system) :
    Accounted (max client.config.maxInflightPerResolver 1) system.dispatch := by
  apply reachable_invariant (fun system : System client.resolvers.length =>
    Accounted (max client.config.maxInflightPerResolver 1) system.dispatch) _ reached
  · exact accounted_pool client.resolvers client.config client.queueCapacity 0
  · exact fun before after kept stepped => system_step_accounted stepped kept

/-- The buckets of a snapshot are of queries that had been attempted by its end, and if
nothing was in flight or sent meanwhile they are all of them. -/
theorem shows_recorded {before after : ResolverHealth} {stats : ResolverStats}
    (shown : Shows permits before after stats) (recorded : after.recorded ≤ after.attempted) :
    stats.recorded ≤ after.attempted ∧
      (before.attempted = before.recorded → after.attempted = before.attempted →
        stats.attempted = stats.recorded) := by
  have attempted := shown.between .attempted
  have answered := shown.between .answered
  have empty := shown.between .empty
  have timeout := shown.between .timeout
  have error := shown.between .error
  simp only [Tally.of, Tally.seen, ResolverHealth.recorded] at *
  constructor
  · rw [ResolverStats.recorded]
    omega
  · intro landed unsent
    rw [ResolverStats.recorded]
    omega

/-- However the workers go on while `stats` is taken, it has one snapshot for each
resolver in order. Each count lies between what it was when the call began and what it
is when it ends; the buckets leave out at most the permits of the attempts shown; and
the snapshot is exact if none of the resolver's queries was in flight or sent. -/
theorem snapshot_accounts (fromAscii : String → Except ProtoError Name) {client : BlastDNSClient}
    {first last : System client.resolvers.length} {survey : Survey client.resolvers.length}
    (reached : Relation.ReflTransGen (SystemSteps fromAscii client.config) (newSystem client) first)
    (taken : Relation.ReflTransGen (SurveySteps fromAscii client.config) (first, {})
      (last, survey))
    (done : survey.left = []) :
    List.Forall₂ (fun i stats =>
        stats.resolver = (first.dispatch.shared.pool i).resolver ∧
        (∀ tally : Tally, tally.of (first.dispatch.shared.pool i) ≤ tally.seen stats ∧
          tally.seen stats ≤ tally.of (last.dispatch.shared.pool i)) ∧
        stats.attempted ≤ stats.recorded + max client.config.maxInflightPerResolver 1 ∧
        stats.recorded ≤ (last.dispatch.shared.pool i).attempted ∧
        (inFlight first.dispatch i = 0 →
          (last.dispatch.shared.pool i).attempted = (first.dispatch.shared.pool i).attempted →
          stats.attempted = stats.recorded))
      (List.finRange client.resolvers.length) survey.taken := by
  have accounted := reached_system_accounted reached
  have surveys := survey_reached taken accounted
  rcases surveys.split with ⟨all, split, shown⟩
  rw [done, List.append_nil] at split
  rw [split]
  refine shown.imp ?_
  intro i stats known
  have recorded : (last.dispatch.shared.pool i).recorded ≤
      (last.dispatch.shared.pool i).attempted := by
    rw [accounted_outcomes surveys.accounted i]
    exact Nat.le_add_right _ _
  rcases shows_recorded known recorded with ⟨caused, quiet⟩
  refine ⟨known.resolver, known.between, known.covered, caused, ?_⟩
  intro landed unsent
  apply quiet _ unsent
  rw [accounted_outcomes accounted i, landed, Nat.add_zero]

/-- A query sent and answered right after `attempted` was loaded: its answer is in the
snapshot and its attempt is not. -/
theorem snapshot_accounts_torn :
    ∃ (last : System 1) (stats : ResolverStats), stats.attempted = 0 ∧ stats.answered = 1 ∧
      stats.recorded ≤ (last.dispatch.shared.pool 0).attempted := by
  let started : List (Action 1) := [.startInit 0, .finishInit 0, .submit 0 ⟨"a.example", 1⟩]
  let answer : DnsResponse := ⟨0, false, [⟨60, "10.0.0.1"⟩]⟩
  let sends : List (Action 1) :=
    List.replicate 10 (.worker 0 .proceed) ++ [.worker 0 (.answer (.ok answer)), .worker 0 .proceed]
  let events : List (SurveyEvent 1) :=
    [.load, .load] ++ sends.map .system ++ List.replicate 10 .load
  have ready : (started.foldlM (systemStep anyName narrowConfig) (newSystem narrowClient)).map
      (fun system => (events.foldlM (surveyStep anyName narrowConfig) (system, {})).map
        (fun state => (state.2.left, state.2.taken.map fun stats =>
          (stats.attempted, stats.answered)))) =
      some (some ([], [(0, 1)])) := by
    decide
  rcases Option.map_eq_some_iff.mp ready with ⟨first, replayed, surveyed⟩
  rcases Option.map_eq_some_iff.mp surveyed with ⟨⟨last, survey⟩, played, seen⟩
  rcases Prod.mk.inj seen with ⟨done, counts⟩
  have reached : Relation.ReflTransGen (SystemSteps anyName narrowClient.config)
      (newSystem narrowClient) first := replay_reaches replayed
  have accounts := snapshot_accounts anyName reached (replay_reaches played) done
  rcases List.map_eq_cons_iff.mp counts with ⟨stats, rest, same, counted, _⟩
  rw [same] at accounts
  cases accounts with
  | cons shown _ =>
      rcases Prod.mk.inj counted with ⟨attempted, answered⟩
      exact ⟨last, stats, attempted, answered, shown.2.2.2.1⟩

end Surveys

end BlastDns.Stats
