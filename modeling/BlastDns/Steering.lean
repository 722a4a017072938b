import BlastDns.CallsReturn
import BlastDns.Stats
import BlastDns.WindowAccounts

/-!
The controller's task beside everything it steers. `AdaptiveController::spawn` ticks
every half second over counters that calls and workers go on updating, and it loads
them one by one: a tick is not atomic. It is still the tick that `Controller` makes of
one input, the one that holds each value as it was loaded. These inputs never go back
and stay close to what happens, so what holds of the controller over any inputs holds
of it here.

There is one controller; how a clone can start a second one is in `GlobalCap`. What
waits on its attempt pacer is up to the environment.
-/

namespace BlastDns.Steering

open Accounting Brake Cache Calls Client Config Controller ControlRuns Crew GlobalCap Health
open LaneTick Limiter Lru NetText Politeness Resolve Runs Stats WindowAccounts Worker

def tickNs : ℕ := 500 * 10 ^ 6

section Machine

variable {n : ℕ}

/-- The loop of a tick: the resolvers left, the reading of the first of them once it is
begun, and the totals. What it has found of the others is written down. -/
structure Tick (n : ℕ) where
  elapsedNs : ℕ
  now : ℕ
  left : List (Fin n) := List.finRange n
  reading : Option Reading := none
  totals : Control.Totals := {}
  found : Fin n → ResolverHealth

def Tick.input (tick : Tick n) (outcomes : Outcomes) (waiting : ℕ) : TickInput n where
  elapsedNs := tick.elapsedNs
  now := tick.now
  resolvers := tick.found
  outcomes := outcomes
  waiting := waiting

inductive Task (n : ℕ) where
  -- not spawned yet
  | unborn
  | asleep (untilNs : ℕ)
  | sweeping (tick : Tick n)
  -- in `adjust_global`, with `completed` loaded and `failed` not
  | adjusting (tick : Tick n) (completed : ℕ)
  | braking (tick : Tick n) (outcomes : Outcomes)

variable {Name : Type} [DecidableEq Name] {lru : LruCache (Name × ℕ) CacheEntry}

structure Watch (n : ℕ) (lru : LruCache (Name × ℕ) CacheEntry) where
  desk : Desk n lru
  control : Control n
  task : Task n := .unborn
  previousNs : ℕ := 0
  -- the inputs of the ticks that are over
  ticks : List (TickInput n) := []

namespace Watch

def shared (watch : Watch n lru) : Shared n := watch.desk.shared.system.dispatch.shared

def outcomes (watch : Watch n lru) : Outcomes := watch.desk.shared.client.outcomes

/-- The resolver as a snapshot shows it. -/
def noticed (health : ResolverHealth) (stats : ResolverStats) : ResolverHealth :=
  { health with
    attempted := stats.attempted
    answered := stats.answered
    empty := stats.empty
    timeout := stats.timeout
    error := stats.error
    purgatoryEntries := stats.purgatoryEntries
    truncated := stats.truncated }

def setLimiter (watch : Watch n lru) (i : Fin n) (limiter : RateLimiter) : Desk n lru :=
  { watch.desk with shared := { watch.desk.shared with system := { watch.desk.shared.system with
    dispatch := { watch.desk.shared.system.dispatch with
      shared := watch.shared.setResolver i { watch.shared.pool i with limiter := limiter } } } } }

/-- One load, or the loop body once all are made. -/
def sweepStep (watch : Watch n lru) (tick : Tick n) : Option (Watch n lru) :=
  match tick.left, tick.reading with
  | [], _ => some { watch with task := .adjusting tick watch.outcomes.completed }
  | i :: _, none =>
      some { watch with task := .sweeping { tick with
        reading := some { stats := { resolver := (watch.shared.pool i).resolver } } } }
  | i :: rest, some reading =>
      match reading.next (watch.shared.pool i) with
      | some next => some { watch with task := .sweeping { tick with reading := some next } }
      | none =>
          let found := Function.update tick.found i (noticed (watch.shared.pool i) reading.stats)
          let input := { tick with found := found }.input {} 0
          (Sweep.visit (Control.lanes n) (Control.resolverBody input) (Control.resolverCount input)
            (watch.control, tick.totals) i).map fun swept =>
              { watch with
                desk := watch.setLimiter i (swept.1.limiters i)
                control := swept.1
                task := .sweeping { tick with
                  left := rest, reading := none, totals := swept.2, found := found } }

/-- The end of `tick`: the global rate, then the attempt brake. -/
def finishTick (control : Control n) (totals : Control.Totals) (input : TickInput n) :
    Option (Control n) := do
  let globalRate := control.controller.global.rate
  let brake ← control.controller.toGlobalBrake.adjustGlobal input.outcomes input.seconds
    totals.attempted
  let moved := brake.global.rate ≠ globalRate
  return { control with
    controller := { control.controller with
      toGlobalBrake := brake
      attempts := Control.tickAttempts control.controller.attempts moved totals input } }

theorem tick_finishes (control : Control n) (input : TickInput n) :
    control.tick input =
      (control.tickResolvers input).bind fun swept => finishTick swept.1 swept.2 input := rfl

end Watch

inductive WatchEvent (n : ℕ) where
  | desk (event : DeskEvent n)
  -- the task is first polled
  | start
  | wake
  | load
  | brake (waiting : ℕ)

variable {Wire : Type} (fromAscii : String → Except ProtoError Wire) (config : BlastDNSConfig)
variable (parse : String → Option Name) (latest : ℕ)

def watchStep (watch : Watch n lru) : WatchEvent n → Option (Watch n lru)
  -- only the controller sets a resolver's rate
  | .desk (.system (.around (.setRate _ _))) => none
  | .desk event =>
      (deskStep fromAscii config parse latest watch.desk event).bind fun desk =>
        if desk.shared.system.controllers ≤ 1 then some { watch with desk := desk } else none
  | .start =>
      match watch.task with
      | .unborn =>
          if watch.desk.shared.system.controllers = 1 then
            some { watch with
              task := .asleep (watch.shared.nowNs + tickNs), previousNs := watch.shared.nowNs }
          else none
      | _ => none
  | .wake =>
      match watch.task with
      | .asleep untilNs =>
          if untilNs ≤ watch.shared.nowNs then
            some { watch with
              task := .sweeping {
                elapsedNs := watch.shared.nowNs - watch.previousNs
                now := watch.shared.nowNs
                found := watch.shared.pool } }
          else none
      | _ => none
  | .load =>
      match watch.task with
      | .sweeping tick => watch.sweepStep tick
      | .adjusting tick completed =>
          some { watch with
            task := .braking tick { completed := completed, failed := watch.outcomes.failed } }
      | _ => none
  | .brake waiting =>
      match watch.task with
      | .braking tick outcomes =>
          let input := tick.input outcomes waiting
          (Watch.finishTick watch.control tick.totals input).map fun control =>
            { watch with
              control := control
              task := .asleep (watch.shared.nowNs + tickNs)
              previousNs := tick.now
              ticks := watch.ticks ++ [input] }
      | _ => none

def WatchSteps (before after : Watch n lru) : Prop :=
  ∃ event, watchStep fromAscii config parse latest before event = some after

end Machine

section Desks

variable {n : ℕ} {Name : Type} [DecidableEq Name] {lru : LruCache (Name × ℕ) CacheEntry}
variable {Wire : Type} {fromAscii : String → Except ProtoError Wire} {config : BlastDNSConfig}
variable {parse : String → Option Name} {latest : ℕ}

theorem moves_outcomes {floor after : Floor n lru} {caller moved : Caller}
    (moves : Moves fromAscii config parse latest floor caller after moved) :
    floor.client.outcomes.completed ≤ after.client.outcomes.completed ∧
      floor.client.outcomes.failed ≤ after.client.outcomes.failed := by
  cases moves with
  | hit _ looked => simp [(lookup_keeps looked).1]
  | missed _ looked => simp [(lookup_keeps looked).1]
  | stored _ kept => simp [(store_keeps kept).1]
  | completes => simp [ClientState.completed]
  | concedes => simp [ClientState.completed]
  | fails => simp [ClientState.failed]
  | _ => exact ⟨le_rfl, le_rfl⟩

variable {desk later : Desk n lru} {event : DeskEvent n}

theorem desk_step_outcomes
    (stepped : deskStep fromAscii config parse latest desk event = some later) :
    desk.shared.client.outcomes.completed ≤ later.shared.client.outcomes.completed ∧
      desk.shared.client.outcomes.failed ≤ later.shared.client.outcomes.failed := by
  cases event with
  | arrive handle host recordType =>
      simp only [deskStep] at stepped
      split at stepped <;> cases stepped
      exact ⟨le_rfl, le_rfl⟩
  | call index label =>
      rcases act_some stepped with ⟨caller, floor, moved, _, moves, rfl⟩
      exact moves_outcomes (call_step_moves moves)
  | system action =>
      rcases desk_step_system stepped with ⟨_, system, moved, rfl⟩
      exact ⟨le_rfl, le_rfl⟩

/-- What the controller's task can count on while others move. -/
structure DeskGrows (desk later : Desk n lru) : Prop where
  pool : PoolAdvances desk.shared.system.dispatch.shared later.shared.system.dispatch.shared
  completed : desk.shared.client.outcomes.completed ≤ later.shared.client.outcomes.completed
  failed : desk.shared.client.outcomes.failed ≤ later.shared.client.outcomes.failed
  nowNs : desk.shared.system.dispatch.shared.nowNs ≤ later.shared.system.dispatch.shared.nowNs
  accounted : ∀ permits, Accounted permits desk.shared.system.dispatch →
    Accounted permits later.shared.system.dispatch

theorem desk_step_grows (stepped : deskStep fromAscii config parse latest desk event = some later)
    (unpaced : ∀ i queriesPerSecond, event ≠ .system (.around (.setRate i queriesPerSecond))) :
    DeskGrows desk later := by
  rcases desk_step_outcomes stepped with ⟨completed, failed⟩
  rcases desk_step_beneath stepped with same | ⟨action, moved, origin⟩
  · refine ⟨?_, completed, failed, ?_, ?_⟩
    · rw [same]
      exact pool_advances_refl _
    · rw [same]
    · rw [same]
      exact fun _ kept => kept
  · have accounted : ∀ permits, Accounted permits desk.shared.system.dispatch →
        Accounted permits later.shared.system.dispatch :=
      fun permits kept => system_step_accounted ⟨action, moved⟩ kept
    rcases system_step_dispatch moved with same | ⟨event, dispatched, source⟩
    · refine ⟨?_, completed, failed, ?_, accounted⟩
      · rw [same]
        exact pool_advances_refl _
      · rw [same]
    · refine ⟨?_, completed, failed, system_step_later moved, accounted⟩
      apply dispatch_step_advances dispatched
      rintro i queriesPerSecond rfl
      rcases source _ rfl with rfl | ⟨query, enqueued⟩
      · rcases origin with direct | ⟨_, _, submits⟩
        · exact unpaced i queriesPerSecond direct
        · cases submits
      · cases enqueued

end Desks

section Invariant

variable {n : ℕ} {Name : Type} [DecidableEq Name] {lru : LruCache (Name × ℕ) CacheEntry}

/-- What was found of a resolver is no more than there is now, and its buckets leave out
at most the permits. -/
structure Trails (permits : ℕ) (seen now : ResolverHealth) : Prop where
  tallies : ∀ tally : Tally, tally.of seen ≤ tally.of now
  covered : seen.attempted ≤ seen.recorded + permits

/-- How far the counters had come at some point of the run. -/
structure Mark (n : ℕ) where
  counts : Fin n → Tally → ℕ
  outcomes : Outcomes

/-- The counts an earlier tick has found, or those of the mark. -/
def Known (mark : Mark n) (ticks : List (TickInput n)) (i : Fin n) (least : Tally → ℕ) : Prop :=
  least = mark.counts i ∨ ∃ input ∈ ticks, least = Tally.of (input.resolvers i)

/-- The loop up to here is that of `Control.tick`, over what was found. -/
structure Sweeping (permits : ℕ) (mark : Mark n) (woken : Control n)
    (shared : Shared n) (control : Control n) (ticks : List (TickInput n)) (tick : Tick n) :
    Prop where
  done : ∃ done, List.finRange n = done ++ tick.left ∧
    Sweep.sweep (Control.lanes n) (Control.resolverBody (tick.input {} 0))
      (Control.resolverCount (tick.input {} 0)) done (woken, {}) = some (control, tick.totals) ∧
    ∀ i ∈ done, Trails permits (tick.found i) (shared.pool i) ∧
      ∀ least, Known mark ticks i least → ∀ tally, least tally ≤ tally.of (tick.found i)
  reading : ∀ i ∈ tick.left.head?, ∀ reading ∈ tick.reading, ∀ least,
    Known mark ticks i least → Within permits least (shared.pool i) reading
  long : tickNs ≤ tick.elapsedNs
  past : tick.now ≤ shared.nowNs

/-- A count no less than was marked or any tick has found, and no more than there is. -/
structure Fresh (mark : Mark n) (now : Outcomes) (ticks : List (TickInput n))
    (count : Outcomes → ℕ) (value : ℕ) : Prop where
  above : count mark.outcomes ≤ value
  below : value ≤ count now
  later : ∀ input ∈ ticks, count input.outcomes ≤ value

/-- Where the task stands, between ticks or within one. -/
def Stands (permits : ℕ) (mark : Mark n) (start : Control n) (watch : Watch n lru) :
    Prop :=
  match watch.task with
  | .unborn => watch.ticks.foldlM Control.tick start = some watch.control
  | .asleep untilNs =>
      watch.ticks.foldlM Control.tick start = some watch.control ∧
        watch.previousNs + tickNs ≤ untilNs
  | .sweeping tick =>
      ∃ woken, watch.ticks.foldlM Control.tick start = some woken ∧
        Sweeping permits mark woken watch.shared watch.control watch.ticks tick
  | .adjusting tick completed =>
      ∃ woken, watch.ticks.foldlM Control.tick start = some woken ∧
        Sweeping permits mark woken watch.shared watch.control watch.ticks tick ∧
        tick.left = [] ∧ Fresh mark watch.outcomes watch.ticks Outcomes.completed completed
  | .braking tick outcomes =>
      ∃ woken, watch.ticks.foldlM Control.tick start = some woken ∧
        Sweeping permits mark woken watch.shared watch.control watch.ticks tick ∧
        tick.left = [] ∧
        Fresh mark watch.outcomes watch.ticks Outcomes.completed outcomes.completed ∧
        Fresh mark watch.outcomes watch.ticks Outcomes.failed outcomes.failed

structure Precedes (earlier later : TickInput n) : Prop where
  resolvers : ∀ i (tally : Tally), tally.of (earlier.resolvers i) ≤ tally.of (later.resolvers i)
  completed : earlier.outcomes.completed ≤ later.outcomes.completed
  failed : earlier.outcomes.failed ≤ later.outcomes.failed

structure Behind (permits : ℕ) (shared : Shared n) (outcomes : Outcomes) (input : TickInput n) :
    Prop where
  resolvers : ∀ i, Trails permits (input.resolvers i) (shared.pool i)
  completed : input.outcomes.completed ≤ outcomes.completed
  failed : input.outcomes.failed ≤ outcomes.failed
  long : tickNs ≤ input.elapsedNs

/-- The invariant from a mark on, at which `since` ticks were over. -/
structure Steered (permits : ℕ) (mark : Mark n) (since : ℕ) (start : Control n)
    (watch : Watch n lru) : Prop where
  accounted : Accounted permits watch.desk.shared.system.dispatch
  above : ∀ i tally, mark.counts i tally ≤ tally.of (watch.shared.pool i)
  completed : mark.outcomes.completed ≤ watch.outcomes.completed
  failed : mark.outcomes.failed ≤ watch.outcomes.failed
  paced : ∀ i, (watch.shared.pool i).limiter = watch.control.limiters i
  behind : ∀ input ∈ watch.ticks, Behind permits watch.shared watch.outcomes input
  ordered : watch.ticks.Pairwise Precedes
  recent : ∀ input ∈ watch.ticks.drop since,
    (∀ i tally, mark.counts i tally ≤ tally.of (input.resolvers i)) ∧
      mark.outcomes.completed ≤ input.outcomes.completed ∧
      mark.outcomes.failed ≤ input.outcomes.failed
  past : watch.previousNs ≤ watch.shared.nowNs
  stands : Stands permits mark start watch

end Invariant

section Steps

variable {n : ℕ} {Name : Type} [DecidableEq Name] {lru : LruCache (Name × ℕ) CacheEntry}
variable {permits : ℕ} {mark : Mark n} {since : ℕ} {start woken : Control n}
variable {watch : Watch n lru} {tick : Tick n} {ticks : List (TickInput n)}

theorem trails_grows {seen now later : ResolverHealth} (trails : Trails permits seen now)
    (grown : Grows now later) : Trails permits seen later where
  tallies tally := (trails.tallies tally).trans (grown.tallies tally)
  covered := trails.covered

/-- The loop of a tick does not notice that others have moved. -/
theorem sweeping_grows {shared later : Shared n} {control : Control n}
    (pool : PoolGrows shared later) (nowNs : shared.nowNs ≤ later.nowNs)
    (sweeping : Sweeping permits mark woken shared control ticks tick) :
    Sweeping permits mark woken later control ticks tick := by
  rcases sweeping with ⟨⟨done, split, swept, found⟩, reading, long, past⟩
  refine ⟨⟨done, split, swept, ?_⟩, ?_, long, past.trans nowNs⟩
  · intro i member
    rcases found i member with ⟨trails, known⟩
    exact ⟨trails_grows trails (pool i), known⟩
  · intro i head started begun least known
    exact within_grows (reading i head started begun least known) (pool i)

theorem behind_grows {shared later : Shared n} {outcomes others : Outcomes} {input : TickInput n}
    (pool : PoolGrows shared later) (completed : outcomes.completed ≤ others.completed)
    (failed : outcomes.failed ≤ others.failed) (behind : Behind permits shared outcomes input) :
    Behind permits later others input where
  resolvers i := trails_grows (behind.resolvers i) (pool i)
  completed := behind.completed.trans completed
  failed := behind.failed.trans failed
  long := behind.long

theorem fresh_grows {now later : Outcomes} {count : Outcomes → ℕ} {value : ℕ}
    (grown : count now ≤ count later) (fresh : Fresh mark now ticks count value) :
    Fresh mark later ticks count value :=
  ⟨fresh.above, fresh.below.trans grown, fresh.later⟩

theorem steered_desk {desk : Desk n lru} (grown : DeskGrows watch.desk desk)
    (steered : Steered permits mark since start watch) :
    Steered permits mark since start { watch with desk := desk } := by
  have pool : PoolGrows watch.shared desk.shared.system.dispatch.shared :=
    fun i => (grown.pool i).toGrows
  rcases steered with
    ⟨accounted, above, completed, failed, paced, behind, ordered, recent, past, stands⟩
  refine ⟨grown.accounted permits accounted, ?_, completed.trans grown.completed,
    failed.trans grown.failed, ?_, ?_, ordered, recent, past.trans grown.nowNs, ?_⟩
  · exact fun i tally => (above i tally).trans ((pool i).tallies tally)
  · exact fun i => (grown.pool i).limiter.trans (paced i)
  · exact fun input member => behind_grows pool grown.completed grown.failed (behind input member)
  · simp only [Stands] at stands ⊢
    split at stands
    · exact stands
    · exact stands
    · rcases stands with ⟨woken, ticked, sweeping⟩
      exact ⟨woken, ticked, sweeping_grows pool grown.nowNs sweeping⟩
    · rcases stands with ⟨woken, ticked, sweeping, last, completed⟩
      exact ⟨woken, ticked, sweeping_grows pool grown.nowNs sweeping, last,
        fresh_grows grown.completed completed⟩
    · rcases stands with ⟨woken, ticked, sweeping, last, completed, failed⟩
      exact ⟨woken, ticked, sweeping_grows pool grown.nowNs sweeping, last,
        fresh_grows grown.completed completed, fresh_grows grown.failed failed⟩

theorem known_below (steered : Steered permits mark since start watch) {i : Fin n}
    {least : Tally → ℕ} (known : Known mark watch.ticks i least) (tally : Tally) :
    least tally ≤ tally.of (watch.shared.pool i) := by
  rcases known with rfl | ⟨input, member, rfl⟩
  · exact steered.above i tally
  · exact ((steered.behind input member).resolvers i).tallies tally

theorem noticed_tally (health : ResolverHealth) (stats : ResolverStats) (tally : Tally) :
    tally.of (Watch.noticed health stats) = tally.seen stats := by
  cases tally <;> rfl

theorem limiter_conserves (shared : Shared n) (i : Fin n) (limiter : RateLimiter) :
    Conserves shared (shared.setResolver i { shared.pool i with limiter := limiter }) .idle .idle := by
  apply conserves_entry i
  · rfl
  · exact fun _ _ => ⟨rfl, rfl⟩
  · rfl
  · rfl
  · exact fun _ => rfl

theorem conserved_accounted {dispatch : Dispatch n} {shared : Shared n}
    (kept : Conserves dispatch.shared shared .idle .idle) (accounted : Accounted permits dispatch) :
    Accounted permits { dispatch with shared := shared } := by
  constructor
  · intro i
    have same := kept.permits i
    have before := accounted.permits i
    simp only [total] at before ⊢
    omega
  · intro i
    have same := kept.outcomes i
    have before := accounted.outcomes i
    simp only [total] at before ⊢
    omega
  · intro responder
    have same := kept.items responder
    have before := accounted.items responder
    simp only [total] at before ⊢
    omega

/-- What the loop has found of a resolver once its snapshot is taken. -/
theorem noticed_trails {i : Fin n} {reading : Reading} (finished : reading.left = [])
    (within : ∀ least, Known mark watch.ticks i least →
      Within permits least (watch.shared.pool i) reading) :
    Trails permits (Watch.noticed (watch.shared.pool i) reading.stats) (watch.shared.pool i) ∧
      ∀ least, Known mark watch.ticks i least → ∀ tally,
        least tally ≤ tally.of (Watch.noticed (watch.shared.pool i) reading.stats) := by
  constructor
  · rcases within_done (within _ (.inl rfl)) finished with ⟨between, covered⟩
    refine ⟨?_, covered⟩
    intro tally
    rw [noticed_tally]
    exact (between tally).2
  · intro least known tally
    rw [noticed_tally]
    exact ((within_done (within least known) finished).1 tally).1

/-- One more resolver of the loop, over an input that agrees on those before it. -/
theorem sweep_visits (input : TickInput n) {next : TickInput n} {control : Control n} {totals : Control.Totals}
    {swept : Control n × Control.Totals} {done : List (Fin n)} {i : Fin n}
    (now : next.now = input.now) (elapsed : next.elapsedNs = input.elapsedNs)
    (same : ∀ index ∈ done, next.resolvers index = input.resolvers index)
    (before : Sweep.sweep (Control.lanes n) (Control.resolverBody input)
      (Control.resolverCount input) done (woken, {}) = some (control, totals))
    (visited : Sweep.visit (Control.lanes n) (Control.resolverBody next)
      (Control.resolverCount next) (control, totals) i = some swept) :
    Sweep.sweep (Control.lanes n) (Control.resolverBody next) (Control.resolverCount next)
      (done ++ [i]) (woken, {}) = some swept := by
  have alike : Sweep.sweep (Control.lanes n) (Control.resolverBody next)
      (Control.resolverCount next) done (woken, {}) = some (control, totals) := by
    rw [← before]
    apply Sweep.sweep_congr
    intro index member
    constructor
    · funext lane
      simp only [Control.resolverBody, TickInput.seconds, same index member, now, elapsed]
    · funext lane counted
      simp only [Control.resolverCount, same index member]
  rw [Sweep.sweep_append, alike]
  change (Sweep.visit _ _ _ _ _ >>= pure) = _
  rw [visited]
  rfl

/-- A load of the loop, or the loop body once a snapshot is taken. -/
theorem sweep_step_sweeping {after : Watch n lru}
    (stepped : watch.sweepStep tick = some after) (accounted : Accounted permits
      watch.desk.shared.system.dispatch)
    (below : ∀ i least, Known mark watch.ticks i least → ∀ tally,
      least tally ≤ Tally.of (watch.shared.pool i) tally)
    (sweeping : Sweeping permits mark woken watch.shared watch.control watch.ticks tick) :
    (tick.left = [] ∧
      after = { watch with task := .adjusting tick watch.outcomes.completed }) ∨
    (∃ reading, after = { watch with task := .sweeping { tick with reading := reading } } ∧
      Sweeping permits mark woken watch.shared watch.control watch.ticks
        { tick with reading := reading }) ∨
    ∃ i next control, after = { watch with
        desk := watch.setLimiter i (control.limiters i), control := control
        task := .sweeping next } ∧
      (∀ j, j ≠ i → control.limiters j = watch.control.limiters j) ∧
      Sweeping permits mark woken watch.shared control watch.ticks next := by
  rcases sweeping with ⟨⟨done, split, swept, found⟩, reading, long, past⟩
  rw [Watch.sweepStep] at stepped
  split at stepped
  · rename_i left
    cases stepped
    exact .inl ⟨left, rfl⟩
  · rename_i i rest left unread
    cases stepped
    refine .inr (.inl ⟨_, rfl, ⟨done, split, swept, found⟩, ?_, long, past⟩)
    intro j head started begun least known
    cases begun
    rw [left] at head
    cases head
    exact within_start (below i least known)
  · rename_i i rest started left begun
    have within := reading i (by rw [left]; rfl) started begun
    split at stepped
    · rename_i next moved
      cases stepped
      refine .inr (.inl ⟨_, rfl, ⟨done, split, swept, found⟩, ?_, long, past⟩)
      intro j head later same least known
      cases same
      rw [left] at head
      cases head
      exact within_next (within least known) moved (accounted_covered accounted i)
    · rename_i unloaded
      rcases Option.map_eq_some_iff.mp stepped with ⟨⟨control, totals⟩, visited, rfl⟩
      have finished : started.left = [] := by
        cases loads : started.left with
        | nil => rfl
        | cons load others => simp [Reading.next, loads] at unloaded
      have unique : (done ++ tick.left).Nodup := split ▸ List.nodup_finRange n
      have fresh : i ∉ done := by
        intro member
        rw [left] at unique
        exact (List.nodup_append.mp unique).2.2 i member i List.mem_cons_self rfl
      refine .inr (.inr ⟨i, _, control, rfl, ?_, ⟨done ++ [i], ?_, ?_, ?_⟩, ?_, long, past⟩)
      · intro j other
        rcases Sweep.visit_some visited with ⟨lane, _, same⟩
        cases same
        exact Function.update_of_ne other _ _
      · rw [split, left, List.append_assoc]
        rfl
      · refine sweep_visits (tick.input {} 0) rfl rfl ?_ swept visited
        intro index member
        exact Function.update_of_ne (fun here : index = i => fresh (here ▸ member)) _ _
      · intro j member
        by_cases here : j = i
        · subst here
          dsimp only
          rw [Function.update_self]
          exact noticed_trails finished within
        · have before : j ∈ done := by simpa [here] using member
          dsimp only
          rw [Function.update_of_ne here]
          exact found j before
      · intro j _ later same
        cases same

theorem steered_sweeps {after : Watch n lru} (sweeps : watch.task = .sweeping tick)
    (stepped : watch.sweepStep tick = some after)
    (steered : Steered permits mark since start watch) :
    Steered permits mark since start after := by
  have below : ∀ i least, Known mark watch.ticks i least → ∀ tally,
      least tally ≤ Tally.of (watch.shared.pool i) tally :=
    fun i least known tally => known_below steered known tally
  have stands := steered.stands
  rw [Stands, sweeps] at stands
  rcases stands with ⟨woken, ticked, sweeping⟩
  rcases sweep_step_sweeping stepped steered.accounted below sweeping with
    ⟨last, rfl⟩ | ⟨reading, rfl, further⟩ | ⟨i, next, control, rfl, others, further⟩
  · refine { steered with stands := ⟨woken, ticked, sweeping, last, steered.completed, le_rfl, ?_⟩ }
    exact fun input member => (steered.behind input member).completed
  · exact { steered with stands := ⟨woken, ticked, further⟩ }
  · -- the body has set this resolver's rate and nothing else of the pool
    have pool : PoolGrows watch.shared (watch.setLimiter i (control.limiters i)).shared.system.dispatch.shared :=
      set_limiter_grows i (control.limiters i)
    refine ⟨?_, ?_, steered.completed, steered.failed, ?_, ?_, steered.ordered, steered.recent,
      steered.past, woken, ticked, ?_⟩
    · exact conserved_accounted (limiter_conserves _ i _) steered.accounted
    · exact fun j tally => (steered.above j tally).trans ((pool j).tallies tally)
    · intro j
      by_cases here : j = i
      · subst here
        simp [Watch.shared, Watch.setLimiter]
      · simp only [Watch.shared, Watch.setLimiter, set_resolver_other _ here]
        exact (steered.paced j).trans (others j here).symm
    · intro input member
      exact behind_grows pool le_rfl le_rfl (steered.behind input member)
    · exact sweeping_grows pool le_rfl further

theorem finish_limiters {control after : Control n} {totals : Control.Totals}
    {input : TickInput n} (finished : Watch.finishTick control totals input = some after) :
    after.limiters = control.limiters := by
  rcases Option.bind_eq_some_iff.mp finished with ⟨brake, _, returned⟩
  cases returned
  rfl

/-- The tick is over, and it is the tick of what was found. -/
theorem steered_brakes {outcomes : Outcomes} {waiting : ℕ} {control : Control n}
    (brakes : watch.task = .braking tick outcomes)
    (finished : Watch.finishTick watch.control tick.totals (tick.input outcomes waiting) =
      some control)
    (steered : Steered permits mark since start watch) :
    Steered permits mark since start { watch with
      control := control
      task := .asleep (watch.shared.nowNs + tickNs)
      previousNs := tick.now
      ticks := watch.ticks ++ [tick.input outcomes waiting] } := by
  have stands := steered.stands
  rw [Stands, brakes] at stands
  rcases stands with ⟨woken, ticked, sweeping, last, completed, failed⟩
  rcases sweeping.done with ⟨done, split, swept, found⟩
  rw [last, List.append_nil] at split
  subst split
  have all : ∀ i, Trails permits (tick.found i) (watch.shared.pool i) ∧
      ∀ least, Known mark watch.ticks i least → ∀ tally,
        least tally ≤ Tally.of (tick.found i) tally := fun i => found i (List.mem_finRange i)
  refine ⟨steered.accounted, steered.above, steered.completed, steered.failed, ?_, ?_, ?_, ?_,
    sweeping.past, ?_, ?_⟩
  · intro i
    rw [finish_limiters finished]
    exact steered.paced i
  · intro input member
    rcases List.mem_append.mp member with before | latest
    · exact steered.behind input before
    · cases List.mem_singleton.mp latest
      exact ⟨fun i => (all i).1, completed.below, failed.below, sweeping.long⟩
  · refine List.pairwise_append.mpr ⟨steered.ordered, List.pairwise_singleton _ _, ?_⟩
    intro input member latest here
    cases List.mem_singleton.mp here
    refine ⟨?_, completed.later input member, failed.later input member⟩
    exact fun i tally => (all i).2 _ (.inr ⟨input, member, rfl⟩) tally
  · intro input member
    rw [List.drop_append] at member
    rcases List.mem_append.mp member with before | latest
    · exact steered.recent input before
    · cases List.mem_singleton.mp (List.mem_of_mem_drop latest)
      exact ⟨fun i tally => (all i).2 _ (.inl rfl) tally, completed.above, failed.above⟩
  · rw [List.foldlM_append, ticked]
    change (woken.tick (tick.input outcomes waiting) >>= pure) = some control
    have ticks : woken.tick (tick.input outcomes waiting) = some control := by
      have looped : woken.tickResolvers (tick.input outcomes waiting) =
          some (watch.control, tick.totals) := swept
      rw [Watch.tick_finishes, looped]
      exact finished
    rw [ticks]
    rfl
  · exact Nat.add_le_add_right sweeping.past tickNs

variable {Wire : Type} {fromAscii : String → Except ProtoError Wire} {config : BlastDNSConfig}
variable {parse : String → Option Name} {latest : ℕ}

theorem watch_step_desk {event : DeskEvent n} {after : Watch n lru}
    (stepped : watchStep fromAscii config parse latest watch (.desk event) = some after) :
    (∀ i queriesPerSecond, event ≠ .system (.around (.setRate i queriesPerSecond))) ∧
    ∃ desk, deskStep fromAscii config parse latest watch.desk event = some desk ∧
      desk.shared.system.controllers ≤ 1 ∧ after = { watch with desk := desk } := by
  have unpaced : ∀ i queriesPerSecond,
      event ≠ .system (.around (.setRate i queriesPerSecond)) := by
    rintro i queriesPerSecond rfl
    cases stepped
  refine ⟨unpaced, ?_⟩
  rw [watchStep] at stepped
  · rcases Option.bind_eq_some_iff.mp stepped with ⟨desk, moved, rest⟩
    split at rest
    · rename_i single
      cases rest
      exact ⟨desk, moved, single, rfl⟩
    · cases rest
  · exact unpaced

theorem watch_step_steered {after : Watch n lru}
    (stepped : WatchSteps fromAscii config parse latest watch after)
    (steered : Steered permits mark since start watch) :
    Steered permits mark since start after := by
  rcases stepped with ⟨event, stepped⟩
  cases event with
  | desk event =>
      rcases watch_step_desk stepped with ⟨unpaced, desk, moved, _, rfl⟩
      exact steered_desk (desk_step_grows moved unpaced) steered
  | start =>
      simp only [watchStep] at stepped
      split at stepped
      · rename_i unborn
        split at stepped <;> cases stepped
        have stands := steered.stands
        rw [Stands, unborn] at stands
        exact { steered with past := le_rfl, stands := ⟨stands, le_rfl⟩ }
      · cases stepped
  | wake =>
      simp only [watchStep] at stepped
      split at stepped
      · rename_i untilNs asleep
        split at stepped <;> cases stepped
        rename_i due
        have stands := steered.stands
        rw [Stands, asleep] at stands
        refine { steered with stands := ⟨watch.control, stands.1, ⟨[], rfl, rfl, ?_⟩, ?_, ?_, le_rfl⟩ }
        · exact fun i member => absurd member List.not_mem_nil
        · intro i head reading begun
          cases begun
        · have slept := stands.2
          dsimp only
          omega
      · cases stepped
  | load =>
      simp only [watchStep] at stepped
      split at stepped
      · rename_i tick sweeps
        exact steered_sweeps sweeps stepped steered
      · rename_i tick completed adjusts
        cases stepped
        have stands := steered.stands
        rw [Stands, adjusts] at stands
        rcases stands with ⟨woken, ticked, sweeping, last, counted⟩
        refine { steered with
          stands := ⟨woken, ticked, sweeping, last, counted, steered.failed, le_rfl, ?_⟩ }
        exact fun input member => (steered.behind input member).failed
      · cases stepped
  | brake waiting =>
      simp only [watchStep] at stepped
      split at stepped
      · rename_i tick outcomes brakes
        rcases Option.map_eq_some_iff.mp stepped with ⟨control, finished, rfl⟩
        exact steered_brakes brakes finished steered
      · cases stepped

end Steps

section Whole

variable {Name : Type} [DecidableEq Name] {lru : LruCache (Name × ℕ) CacheEntry}

def Task.rests {n : ℕ} : Task n → Bool
  | .unborn | .asleep _ => true
  | .sweeping _ | .adjusting _ _ | .braking _ _ => false

def newWatch (lru : LruCache (Name × ℕ) CacheEntry) (client : BlastDNSClient)
    (start : Control client.resolvers.length) : Watch client.resolvers.length lru where
  desk := newDesk lru client
  control := start

section Marks

variable {n : ℕ} {permits since : ℕ} {mark : Mark n} {start : Control n} {watch : Watch n lru}

def Watch.marked (watch : Watch n lru) : Mark n where
  counts i tally := tally.of (watch.shared.pool i)
  outcomes := watch.outcomes

/-- Between ticks the invariant may be started anew from where the counters are. -/
theorem steered_mark (rests : watch.task.rests = true)
    (steered : Steered permits mark since start watch) :
    Steered permits watch.marked watch.ticks.length start watch := by
  refine { steered with
    above := fun _ _ => le_rfl, completed := le_rfl, failed := le_rfl, recent := ?_, stands := ?_ }
  · intro input member
    rw [List.drop_length] at member
    cases member
  · have stands := steered.stands
    rw [Stands] at stands ⊢
    split at stands
    · exact stands
    · exact stands
    all_goals
      rename_i place
      rw [place] at rests
      cases rests

theorem steered_ticked (rests : watch.task.rests = true)
    (steered : Steered permits mark since start watch) :
    watch.ticks.foldlM Control.tick start = some watch.control := by
  have stands := steered.stands
  rw [Stands] at stands
  split at stands
  · exact stands
  · exact stands.1
  all_goals
    rename_i place
    rw [place] at rests
    cases rests

/-- The inputs of the ticks so far, and ever after the counters as they are. -/
def Watch.inputs (watch : Watch n lru) (time : ℕ) : TickInput n :=
  watch.ticks[time]?.getD
    { elapsedNs := tickNs, now := watch.shared.nowNs, resolvers := watch.shared.pool
      outcomes := watch.outcomes, waiting := 0 }

theorem inputs_ticks (watch : Watch n lru) :
    (List.range watch.ticks.length).map watch.inputs = watch.ticks := by
  apply List.ext_getElem (by simp)
  intro time _ inside
  simp [Watch.inputs, List.getElem?_eq_getElem inside]

theorem inputs_precede (steered : Steered permits mark since start watch) (time : ℕ) :
    Precedes (watch.inputs time) (watch.inputs (time + 1)) := by
  rw [Watch.inputs, Watch.inputs]
  cases later : watch.ticks[time + 1]? with
  | some input =>
      rcases List.getElem?_eq_some_iff.mp later with ⟨inside, rfl⟩
      rw [List.getElem?_eq_getElem (Nat.lt_of_succ_lt inside)]
      exact List.pairwise_iff_getElem.mp steered.ordered time (time + 1) _ inside
        (Nat.lt_succ_self time)
  | none =>
      cases earlier : watch.ticks[time]? with
      | none => exact ⟨fun _ _ => le_rfl, le_rfl, le_rfl⟩
      | some input =>
          have behind := steered.behind input (List.mem_of_getElem? earlier)
          exact ⟨fun i => (behind.resolvers i).tallies, behind.completed, behind.failed⟩

theorem tallies_observed {seen now : ResolverHealth}
    (tallies : ∀ tally : Tally, tally.of seen ≤ tally.of now) (count : Count) :
    count.of (observe seen) ≤ count.of (observe now) := by
  cases count with
  | attempted => exact tallies .attempted
  | lost => exact Nat.add_le_add (tallies .timeout) (tallies .error)
  | responded => exact Nat.add_le_add (tallies .answered) (tallies .empty)

theorem inputs_grow (steered : Steered permits mark since start watch) :
    CountersGrow watch.inputs where
  resolvers i count := by
    apply monotone_nat_of_le_succ
    intro time
    exact tallies_observed ((inputs_precede steered time).resolvers i) count
  completed := monotone_nat_of_le_succ fun time => (inputs_precede steered time).completed
  failed := monotone_nat_of_le_succ fun time => (inputs_precede steered time).failed

end Marks

/-- The controller that runs beside the client is the one of `Controller`, and between
`first` and `last` it has missed nothing and made nothing up. -/
structure Accounts {n : ℕ} (permits : ℕ) (ceiling : ℚ) (first last : Watch n lru)
    (inputs : ℕ → TickInput n) (states : ℕ → Control n) : Prop where
  run : ControlRun ceiling inputs states
  growing : CountersGrow inputs
  ticks : (List.range last.ticks.length).map inputs = last.ticks
  control : states last.ticks.length = last.control
  paced : ∀ i, (last.shared.pool i).limiter = last.control.limiters i
  long : ∀ input ∈ last.ticks, tickNs ≤ input.elapsedNs
  covered : ∀ input ∈ last.ticks, ∀ i, (observe (input.resolvers i)).attempted ≤
    (observe (input.resolvers i)).responded + (observe (input.resolvers i)).lost + permits
  -- all windows of a resolver together
  counted : ∀ i (count : Count),
    count.of (observe (first.shared.pool i)) ≤ closedTotal count inputs states i last.ticks.length +
      count.of (last.control.lane i).window ∧
    closedTotal count inputs states i last.ticks.length + count.of (last.control.lane i).window ≤
      count.of (observe (last.shared.pool i))
  -- and all global ones
  finished : first.outcomes.completed ≤ judgedTotal .finished inputs states last.ticks.length +
      last.control.controller.globalWindow.attempted ∧
    judgedTotal .finished inputs states last.ticks.length +
      last.control.controller.globalWindow.attempted ≤ last.outcomes.completed
  failed : first.outcomes.failed ≤ judgedTotal .failed inputs states last.ticks.length +
      last.control.controller.globalWindow.lost ∧
    judgedTotal .failed inputs states last.ticks.length +
      last.control.controller.globalWindow.lost ≤ last.outcomes.failed

section Marked

variable {n : ℕ} {permits : ℕ} {ceiling : ℚ} {start : Control n} {first last : Watch n lru}

/-- The last of the ticks has found at least what was there at the mark. -/
theorem last_tick (steered : Steered permits first.marked first.ticks.length start last)
    (ticked : first.ticks.length < last.ticks.length) :
    ∃ time, last.ticks.length = time + 1 ∧
      Behind permits last.shared last.outcomes (last.inputs time) ∧
      (∀ i tally, first.marked.counts i tally ≤ tally.of ((last.inputs time).resolvers i)) ∧
      first.outcomes.completed ≤ (last.inputs time).outcomes.completed ∧
      first.outcomes.failed ≤ (last.inputs time).outcomes.failed := by
  rcases Nat.exists_eq_succ_of_ne_zero (Nat.ne_zero_of_lt ticked) with ⟨time, length⟩
  have inside : time < last.ticks.length := by omega
  have here : last.inputs time = last.ticks[time] := by
    simp [Watch.inputs, List.getElem?_eq_getElem inside]
  have recent : last.ticks[time] ∈ last.ticks.drop first.ticks.length := by
    rw [List.mem_iff_getElem?]
    refine ⟨time - first.ticks.length, ?_⟩
    rw [List.getElem?_drop, Nat.add_sub_cancel' (by omega), List.getElem?_eq_getElem inside]
  refine ⟨time, length, ?_⟩
  rw [here]
  exact ⟨steered.behind _ (List.getElem_mem inside), steered.recent _ recent⟩

theorem steered_accounts (fresh : Control.new n ceiling = some start)
    (rests : last.task.rests = true)
    (steered : Steered permits first.marked first.ticks.length start last)
    (ticked : first.ticks.length < last.ticks.length) :
    ∃ inputs states, Accounts permits ceiling first last inputs states := by
  have growing := inputs_grow steered
  rcases control_run_exists (sound_fresh fresh).1 last.inputs with ⟨states, run⟩
  have same : states last.ticks.length = last.control := by
    have begun : states 0 = start := Option.some.inj (run.fresh.symm.trans fresh)
    have replayed := run_replays run.ticks last.ticks.length
    rw [inputs_ticks, begun, steered_ticked rests steered] at replayed
    exact (Option.some.inj replayed).symm
  rcases last_tick steered ticked with ⟨time, length, behind, counts, completed, failed⟩
  have snapshot : ∀ i, (last.control.lane i).perResolver = observe ((last.inputs time).resolvers i) := by
    intro i
    rw [← same, length]
    exact (run_snapshot run i).2 time
  have outcomes : last.control.controller.previousOutcomes =
      { attempted := (last.inputs time).outcomes.completed
        lost := (last.inputs time).outcomes.failed } := by
    rw [← same, length]
    exact (tick_global_counts (run.ticks time)).1
  have whole := (global_account run growing last.ticks.length).whole
  refine ⟨last.inputs, states, run, growing, inputs_ticks last, same, steered.paced, ?_, ?_, ?_, ?_, ?_⟩
  · exact fun input member => (steered.behind input member).long
  · intro input member i
    have covered := ((steered.behind input member).resolvers i).covered
    simp only [observe, ResolverHealth.recorded] at covered ⊢
    omega
  · intro i count
    have account := (resolver_account run growing i last.ticks.length).whole count
    rw [same, snapshot i] at account
    rw [account]
    exact ⟨tallies_observed (counts i) count, tallies_observed (behind.resolvers i).tallies count⟩
  · have account := whole .finished
    simp only [GlobalCount.of, GlobalCount.seen, same, outcomes] at account
    rw [account]
    exact ⟨completed, behind.completed⟩
  · have account := whole .failed
    simp only [GlobalCount.of, GlobalCount.seen, same, outcomes] at account
    rw [account]
    exact ⟨failed, behind.failed⟩

end Marked

section Reached

variable {Wire : Type} {client : BlastDNSClient} {parse : String → Option Name} {latest : ℕ}
variable {start : Control client.resolvers.length}
variable {first last : Watch client.resolvers.length lru}

theorem new_watch_steered {ceiling : ℚ}
    (fresh : Control.new client.resolvers.length ceiling = some start) :
    Steered (max client.config.maxInflightPerResolver 1) ⟨fun _ _ => 0, {}⟩ 0 start
      (newWatch lru client start) where
  accounted := accounted_pool client.resolvers client.config client.queueCapacity 0
  above _ _ := Nat.zero_le _
  completed := le_rfl
  failed := le_rfl
  paced i := by
    have lane := (Control.new_some fresh).2.2 i
    have limiter : start.limiters i = ⟨1⟩ := congrArg Lane.limiter lane
    change (⟨pacingInterval unlimitedQps⟩ : RateLimiter) = start.limiters i
    rw [limiter, unlimited_interval]
  behind _ member := absurd member List.not_mem_nil
  ordered := List.Pairwise.nil
  recent _ member := absurd member List.not_mem_nil
  past := le_rfl
  stands := rfl

/-- Beside any calls, workers and answers, the controller's ticks are those of a run of
`Control.tick` over counters that never go back. In all windows there have been, closed
ones and the open one, each count is at least what it was at any rest of the controller
before its last tick, and at most what it is now. -/
theorem ticks_account_for_events (fromAscii : String → Except ProtoError Wire)
    (fresh : Control.new client.resolvers.length (client.config.rateLimit.getD unlimitedQps) =
      some start)
    (reached : Relation.ReflTransGen (WatchSteps fromAscii client.config parse latest)
      (newWatch lru client start) first)
    (further : Relation.ReflTransGen (WatchSteps fromAscii client.config parse latest) first last)
    (rested : first.task.rests = true) (rests : last.task.rests = true)
    (ticked : first.ticks.length < last.ticks.length) :
    ∃ inputs states, Accounts (max client.config.maxInflightPerResolver 1)
      (client.config.rateLimit.getD unlimitedQps) first last inputs states := by
  have begun : Steered (max client.config.maxInflightPerResolver 1) ⟨fun _ _ => 0, {}⟩ 0 start
      first := by
    apply reachable_invariant _ _ reached (new_watch_steered fresh)
    exact fun before after steered stepped => watch_step_steered stepped steered
  have steered : Steered (max client.config.maxInflightPerResolver 1) first.marked
      first.ticks.length start last := by
    apply reachable_invariant _ _ further (steered_mark rested begun)
    exact fun before after steered stepped => watch_step_steered stepped steered
  exact steered_accounts fresh rests steered ticked

end Reached

/-- One query is sent; the next tick finds it, and nothing else, in the window. -/
theorem ticks_account_for_events_one :
    ∃ (last : Watch 1 (listed : LruCache (String × ℕ) CacheEntry)) (inputs : ℕ → TickInput 1)
      (states : ℕ → Control 1), last.ticks.length = 1 ∧
      closedTotal .attempted inputs states 0 1 + (last.control.lane 0).window.attempted = 1 := by
  let sends : List (WatchEvent 1) :=
    [.desk (.system (.startInit 0)), .desk (.system (.finishInit 0)), .start,
      .desk (.arrive 0 "a.example" 1)] ++ List.replicate 3 (.desk (.call 0 .proceed)) ++
      List.replicate 10 (.desk (.system (.worker 0 .proceed)))
  let ticks : List (WatchEvent 1) :=
    [.desk (.system (.around (.elapse tickNs))), .wake] ++ List.replicate 14 .load ++ [.brake 0]
  have played : (Control.new 1 unlimitedQps).bind (fun start =>
      (sends.foldlM (watchStep anyName narrowConfig some (10 ^ 30))
        (newWatch (listed : LruCache (String × ℕ) CacheEntry) narrowClient start)).bind fun first =>
        (ticks.foldlM (watchStep anyName narrowConfig some (10 ^ 30)) first).map fun last =>
          (first.task.rests, first.ticks.length, (first.shared.pool (0 : Fin 1)).attempted,
            last.task.rests, last.ticks.length, (last.shared.pool (0 : Fin 1)).attempted)) =
      some (true, 0, 1, true, 1, 1) := by
    decide +kernel
  rcases Option.bind_eq_some_iff.mp played with ⟨start, fresh, rest⟩
  rcases Option.bind_eq_some_iff.mp rest with ⟨first, sent, rest⟩
  rcases Option.map_eq_some_iff.mp rest with ⟨last, ticked, seen⟩
  simp only [Prod.mk.injEq] at seen
  rcases seen with ⟨rested, before, attempted, rests, after, now⟩
  have reached : Relation.ReflTransGen (WatchSteps anyName narrowClient.config some (10 ^ 30))
      (newWatch listed narrowClient start) first := replay_reaches sent
  have built : Control.new narrowClient.resolvers.length
      (narrowClient.config.rateLimit.getD unlimitedQps) = some start := fresh
  rcases ticks_account_for_events anyName built reached (replay_reaches ticked) rested rests
    (by omega) with ⟨inputs, states, accounts⟩
  have counted := accounts.counted (0 : Fin 1) .attempted
  rw [after] at counted
  refine ⟨last, inputs, states, after, ?_⟩
  have least : 1 ≤ _ := attempted.ge.trans counted.1
  have most : _ ≤ 1 := counted.2.trans now.le
  exact le_antisymm most least

end Whole

end BlastDns.Steering
