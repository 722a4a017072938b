import Mathlib.Order.Filter.AtTopBot.Basic
import Mathlib.Order.Filter.Finite
import BlastDns.CallTraces
import BlastDns.CallsReturn

/-!
From the first handle of a client to its last task. Nothing tells the tasks behind a
client to stop: a handle holds a sender and a receiver of the queue and a share of the
pool, a worker holds a receiver, a share of the pool and one of its crew's pacer, and
the controller and the ticker of the pacer look at each wake-up whether what they
serve is still there. A worker that finds the queue empty and without senders ends;
the controller of a crew ends when the pool is gone, and its ticker when the pacer is.

So as long as a handle is held the queue stays open and everything runs, and a call
never finds the queue closed, since it borrows the handle it was made on. Once the last
handle is dropped, what is still queued is answered, and then everything ends.
-/

namespace BlastDns.Lifetime

open Accounting Cache Calls Client Config Crew Drain GlobalCap Handling Lru NetText Politeness
open Resolve RetryLoop Runs Worker

/-- The tasks beside one crew of workers, while they run. -/
structure Tasks where
  controller : Bool
  ticker : Bool
  deriving DecidableEq

variable {Name : Type} [DecidableEq Name] {lru : LruCache (Name × ℕ) CacheEntry} {n : ℕ}

structure Tenure (n : ℕ) (lru : LruCache (Name × ℕ) CacheEntry) where
  desk : Desk n lru
  -- the handles that are gone
  dropped : List ℕ := []
  -- one entry for each time an initialiser came to its end
  tasks : List Tasks := []

inductive TenureEvent (n : ℕ) where
  | desk (event : DeskEvent n)
  | drop (handle : ℕ)
  -- the controller of a crew wakes up, or the ticker of its pacer
  | controller (crew : ℕ)
  | ticker (crew : ℕ)

namespace Tenure

def dispatch (tenure : Tenure n lru) : Dispatch n := tenure.desk.shared.system.dispatch

def held (tenure : Tenure n lru) : List ℕ :=
  (List.range tenure.desk.shared.system.handles.length).filter (· ∉ tenure.dropped)

/-- A call that runs, and an initialiser that does, have the handle on loan. -/
def onLoan (tenure : Tenure n lru) (handle : ℕ) : Bool :=
  tenure.desk.procs.any (fun caller => caller.handle = handle && !ended caller) ||
    tenure.desk.shared.system.handles[handle]? = some .initialising

end Tenure

def running : Phase n → Bool
  | .stopped => false
  | _ => true

/-- Whether somebody owns a share of the pool: `weak.upgrade()` in the controller. -/
def poolAlive (tenure : Tenure n lru) : Bool :=
  !tenure.held.isEmpty || tenure.dispatch.procs.any running

section Steps

variable {Wire : Type} (fromAscii : String → Except ProtoError Wire) (config : BlastDNSConfig)
variable (parse : String → Option Name) (latest : ℕ)

def crewSize : ℕ := max config.maxConcurrency 1

/-- The workers that one run of the initialiser spawned. -/
def crewOf (tenure : Tenure n lru) (crew : ℕ) : List (Phase n) :=
  (tenure.dispatch.procs.drop (crew * crewSize config)).take (crewSize config)

/-- Whether somebody owns a share of the crew's pacer: `weak.upgrade()` in its ticker. -/
def pacerAlive (tenure : Tenure n lru) (crew : ℕ) (tasks : Tasks) : Bool :=
  tasks.controller || (crewOf config tenure crew).any running

/-- What is done on a handle needs the handle, and nobody but the last one to drop a
handle closes the queue. -/
def admits (tenure : Tenure n lru) : DeskEvent n → Bool
  | .arrive handle _ _ => handle ∈ tenure.held
  | .call _ _ => true
  | .system (.clone handle) | .system (.startInit handle) | .system (.cancelInit handle)
  | .system (.finishInit handle) => handle ∈ tenure.held
  | .system (.around .close) => false
  | .system _ => true

def spawned : DeskEvent n → List Tasks
  | .system (.finishInit _) => [{ controller := config.adaptive, ticker := config.adaptive }]
  | _ => []

def tenureStep (tenure : Tenure n lru) : TenureEvent n → Option (Tenure n lru)
  | .desk event =>
      if admits tenure event then
        (deskStep fromAscii config parse latest tenure.desk event).map fun desk =>
          { tenure with desk := desk, tasks := tenure.tasks ++ spawned config event }
      else none
  | .drop handle =>
      if handle ∈ tenure.held && !tenure.onLoan handle then
        let left : Tenure n lru := { tenure with dropped := handle :: tenure.dropped }
        if left.held.isEmpty then
          -- the last sender goes with it
          (deskStep fromAscii config parse latest tenure.desk (.system (.around .close))).map
            fun desk => { left with desk := desk }
        else some left
      else none
  | .controller crew =>
      tenure.tasks[crew]?.bind fun tasks =>
        if !tasks.controller then none
        else if poolAlive tenure then some tenure
        else some { tenure with tasks := tenure.tasks.set crew { tasks with controller := false } }
  | .ticker crew =>
      tenure.tasks[crew]?.bind fun tasks =>
        if !tasks.ticker then none
        else if pacerAlive config tenure crew tasks then some tenure
        else some { tenure with tasks := tenure.tasks.set crew { tasks with ticker := false } }

def newTenure (lru : LruCache (Name × ℕ) CacheEntry) (client : BlastDNSClient) :
    Tenure client.resolvers.length lru where
  desk := newDesk lru client

def TenureSteps (before after : Tenure n lru) : Prop :=
  ∃ event, tenureStep fromAscii config parse latest before event = some after

end Steps

section Beneath

variable {Wire : Type} {fromAscii : String → Except ProtoError Wire} {config : BlastDNSConfig}
variable {system after : System n} {action : Action n}

/-- What an action can do to the handles, to the queue's end and to the crews. -/
structure Bears (config : BlastDNSConfig) (action : Action n) (system after : System n) : Prop where
  handles : system.handles.length ≤ after.handles.length
  cloned : (∀ handle, action ≠ .clone handle) → after.handles.length = system.handles.length
  closed : action ≠ .around .close →
    after.dispatch.shared.closed = system.dispatch.shared.closed
  crews : (∀ handle, action ≠ .finishInit handle) →
    after.dispatch.procs.length = system.dispatch.procs.length ∧
      ((∀ phase ∈ system.dispatch.procs, phase = .stopped) →
        after.dispatch.procs = system.dispatch.procs)
  hired : ∀ handle, action = .finishInit handle →
    after.dispatch.procs.length = system.dispatch.procs.length + crewSize config

theorem system_step_bears (stepped : systemStep fromAscii config system action = some after) :
    Bears config action system after := by
  cases action with
  | clone handle =>
      rcases Option.map_eq_some_iff.mp stepped with ⟨cell, _, rfl⟩
      exact ⟨by simp, by simp, by simp, by simp, by simp⟩
  | startInit handle =>
      simp only [systemStep] at stepped
      split at stepped <;> cases stepped
      exact ⟨by simp, by simp, by simp, by simp, by simp⟩
  | cancelInit handle =>
      simp only [systemStep] at stepped
      split at stepped <;> cases stepped
      exact ⟨by simp, by simp, by simp, by simp, by simp⟩
  | finishInit handle =>
      simp only [systemStep] at stepped
      split at stepped <;> cases stepped
      exact ⟨by simp [spawnAll], by simp [spawnAll], by simp [spawnAll, hire], by simp,
        by simp [spawnAll, hire, crewSize]⟩
  | submit handle query =>
      rcases system_step_submit.mp stepped with ⟨_, _, _, rfl⟩
      exact ⟨le_rfl, fun _ => rfl, fun _ => rfl, fun _ => ⟨rfl, fun _ => rfl⟩, by simp⟩
  | worker index label =>
      rcases Option.map_eq_some_iff.mp stepped with ⟨dispatch, acted, rfl⟩
      have size := act_length acted
      rcases act_some acted with ⟨phase, shared, moved, found, works, rfl⟩
      refine ⟨le_rfl, fun _ => rfl, fun _ => (worker_step_handles works).2.closed,
        fun _ => ⟨size, ?_⟩, by simp⟩
      -- nobody moves again once stopped
      intro stopped
      rw [stopped phase (List.mem_of_getElem? found)] at works
      cases works
  | around environment =>
      rcases system_step_around stepped with ⟨_, shared, moved, rfl⟩
      refine ⟨le_rfl, fun _ => rfl, ?_, fun _ => ⟨rfl, fun _ => rfl⟩, by simp⟩
      intro stays
      cases environment with
      | enqueue query =>
          simp only [environmentStep] at moved
          split at moved <;> cases moved
          rfl
      | close => exact absurd rfl stays
      | elapse nanos =>
          cases moved
          rfl
      | probeFailed i =>
          cases moved
          rfl
      | setRate i queriesPerSecond =>
          rcases Option.map_eq_some_iff.mp moved with ⟨_, _, rfl⟩
          rfl

end Beneath

section Invariant

variable {Wire : Type} {fromAscii : String → Except ProtoError Wire} {config : BlastDNSConfig}
variable {parse : String → Option Name} {latest permits : ℕ} {tenure : Tenure n lru}

structure Tenured (fromAscii : String → Except ProtoError Wire) (config : BlastDNSConfig)
    (parse : String → Option Name) (permits : ℕ) (tenure : Tenure n lru) : Prop where
  sound : Sound permits config tenure.desk
  traced : Traced fromAscii config parse tenure.desk
  closed : tenure.dispatch.shared.closed = tenure.held.isEmpty
  borrowed : ∀ caller ∈ tenure.desk.procs, ended caller = false → caller.handle ∈ tenure.held
  answered : ∀ caller ∈ tenure.desk.procs, ∀ err, caller.progress = .returned (.error err) →
    Sourced fromAscii tenure.desk.shared.exchanges caller.query (.error err)
  crews : tenure.dispatch.procs.length = tenure.tasks.length * crewSize config
  tasks : ∀ tasks ∈ tenure.tasks, tasks = ⟨config.adaptive, config.adaptive⟩ ∨
    (tenure.held = [] ∧ ∀ phase ∈ tenure.dispatch.procs, phase = .stopped)

theorem mem_held {handle : ℕ} :
    handle ∈ tenure.held ↔
      handle < tenure.desk.shared.system.handles.length ∧ handle ∉ tenure.dropped := by
  simp [Tenure.held]

theorem held_subset {desk : Desk n lru} (tasks : List Tasks)
    (longer : tenure.desk.shared.system.handles.length ≤ desk.shared.system.handles.length) :
    tenure.held ⊆ Tenure.held { tenure with desk := desk, tasks := tasks } := by
  intro handle member
  rcases mem_held.mp member with ⟨inside, kept⟩
  exact mem_held.mpr ⟨inside.trans_le longer, kept⟩

theorem held_congr {desk : Desk n lru} (tasks : List Tasks)
    (same : desk.shared.system.handles.length = tenure.desk.shared.system.handles.length) :
    Tenure.held { tenure with desk := desk, tasks := tasks } = tenure.held := by
  simp only [Tenure.held, same]

variable {desk : Desk n lru} {event : DeskEvent n}

/-- What an admitted step of the desk does to who holds what. -/
structure Carries (config : BlastDNSConfig) (tenure : Tenure n lru) (event : DeskEvent n)
    (desk : Desk n lru) : Prop where
  held : tenure.held ⊆ Tenure.held
    { tenure with desk := desk, tasks := tenure.tasks ++ spawned config event }
  nobody : (Tenure.held { tenure with
    desk := desk, tasks := tenure.tasks ++ spawned config event }).isEmpty = tenure.held.isEmpty
  closed : desk.shared.system.dispatch.shared.closed = tenure.dispatch.shared.closed
  stopped : tenure.held = [] → (∀ phase ∈ tenure.dispatch.procs, phase = .stopped) →
    desk.shared.system.dispatch.procs = tenure.dispatch.procs
  crews : desk.shared.system.dispatch.procs.length =
    tenure.dispatch.procs.length + (spawned config event).length * crewSize config

theorem carries_same (same : desk.shared.system = tenure.desk.shared.system)
    (quiet : spawned config event = []) : Carries config tenure event desk where
  held := held_subset _ (by rw [same])
  nobody := by rw [held_congr _ (by rw [same])]
  closed := by rw [same, Tenure.dispatch]
  stopped _ _ := by rw [same, Tenure.dispatch]
  crews := by rw [same, quiet, Tenure.dispatch, List.length_nil, Nat.zero_mul, Nat.add_zero]

theorem bears_carries {action : Action n}
    (bears : Bears config action tenure.desk.shared.system desk.shared.system)
    (cloned : ∀ handle, action = .clone handle → tenure.held ≠ [])
    (stays : action ≠ .around .close)
    (hired : ∀ handle, action = .finishInit handle →
      tenure.held ≠ [] ∧ (spawned config event).length = 1)
    (quiet : (∀ handle, action ≠ .finishInit handle) → spawned config event = []) :
    Carries config tenure event desk := by
  have grown := held_subset (tenure.tasks ++ spawned config event) bears.handles
  refine ⟨grown, ?_, bears.closed stays, ?_, ?_⟩
  · by_cases copies : ∃ handle, action = .clone handle
    · rcases copies with ⟨handle, copies⟩
      have before := cloned handle copies
      rcases List.exists_mem_of_ne_nil _ before with ⟨holder, member⟩
      have after := List.ne_nil_of_mem (grown member)
      rw [List.isEmpty_eq_false_iff.mpr before, List.isEmpty_eq_false_iff.mpr after]
    · push Not at copies
      rw [held_congr _ (bears.cloned copies)]
  · intro nobody stopped
    exact (bears.crews fun handle finishes => (hired handle finishes).1 nobody).2 stopped
  · by_cases finishes : ∃ handle, action = .finishInit handle
    · rcases finishes with ⟨handle, finishes⟩
      rw [(hired handle finishes).2, Nat.one_mul]
      exact bears.hired handle finishes
    · push Not at finishes
      rw [quiet finishes, List.length_nil, Nat.zero_mul, Nat.add_zero]
      exact (bears.crews finishes).1

theorem admitted_carries (admitted : admits tenure event = true)
    (stepped : deskStep fromAscii config parse latest tenure.desk event = some desk) :
    Carries config tenure event desk := by
  cases event with
  | arrive handle host recordType =>
      simp only [deskStep] at stepped
      split at stepped <;> cases stepped
      exact carries_same rfl rfl
  | call index label =>
      rcases act_some stepped with ⟨caller, floor, moved, _, moves, rfl⟩
      rcases moves_system (call_step_moves moves) with same | ⟨handle, query, submitted⟩
      · exact carries_same same rfl
      · exact bears_carries (system_step_bears submitted) (by simp) (by simp) (by simp)
          (fun _ => rfl)
  | system action =>
      rcases desk_step_system stepped with ⟨_, system, moved, rfl⟩
      have owned : ∀ {handle : ℕ}, handle ∈ tenure.held → tenure.held ≠ [] :=
        fun member => List.ne_nil_of_mem member
      refine bears_carries (system_step_bears moved) ?_ ?_ ?_ ?_
      · rintro handle rfl
        exact owned (of_decide_eq_true admitted)
      · rintro rfl
        cases admitted
      · rintro handle rfl
        exact ⟨owned (of_decide_eq_true admitted), rfl⟩
      · intro unfinished
        cases action with
        | finishInit handle => exact absurd rfl (unfinished handle)
        | _ => rfl

theorem moves_borrowed {floor after : Floor n lru} {caller moved : Caller}
    (moves : Moves fromAscii config parse latest floor caller after moved) :
    moved.handle = caller.handle ∧ ended caller = false := by
  cases moves with
  | cancels place =>
      rcases place with place | ⟨attempt, place⟩ | ⟨attempt, channel, place⟩ <;>
        exact ⟨rfl, by simp [ended, place]⟩
  | ensured place => exact ⟨rfl, by simp [ended, place]⟩
  | hit place => exact ⟨rfl, by simp [ended, place]⟩
  | missed place => exact ⟨rfl, by simp [ended, place]⟩
  | exhausted place => exact ⟨rfl, by simp [ended, place]⟩
  | refused place => exact ⟨rfl, by simp [ended, place]⟩
  | offered place => exact ⟨rfl, by simp [ended, place]⟩
  | heard place => exact ⟨rfl, by simp [ended, place]⟩
  | judged place => exact ⟨rfl, by simp [ended, place]⟩
  | stored place => exact ⟨rfl, by simp [ended, place]⟩
  | panics place => exact ⟨rfl, by simp [ended, place]⟩
  | completes place => exact ⟨rfl, by simp [ended, place]⟩
  | concedes place => exact ⟨rfl, by simp [ended, place]⟩
  | fails place => exact ⟨rfl, by simp [ended, place]⟩

/-- A call that a step changes runs on a handle that is held. -/
theorem admitted_callers (admitted : admits tenure event = true)
    (borrowed : ∀ caller ∈ tenure.desk.procs, ended caller = false → caller.handle ∈ tenure.held)
    (stepped : deskStep fromAscii config parse latest tenure.desk event = some desk) :
    ∀ caller ∈ desk.procs, caller ∈ tenure.desk.procs ∨ caller.handle ∈ tenure.held := by
  cases event with
  | arrive handle host recordType =>
      simp only [deskStep] at stepped
      split at stepped <;> cases stepped
      intro caller member
      rcases List.mem_append.mp member with before | fresh
      · exact .inl before
      · rw [List.mem_singleton.mp fresh]
        exact .inr (of_decide_eq_true admitted)
  | call index label =>
      rcases act_some stepped with ⟨caller, floor, moved, found, moves, rfl⟩
      rcases moves_borrowed (call_step_moves moves) with ⟨same, pending⟩
      intro other member
      rcases List.mem_or_eq_of_mem_set member with before | rfl
      · exact .inl before
      · rw [same]
        exact .inr (borrowed caller (List.mem_of_getElem? found) pending)
  | system action =>
      rcases desk_step_system stepped with ⟨_, system, _, rfl⟩
      exact fun _ member => .inl member

theorem desk_step_exchanges
    (stepped : deskStep fromAscii config parse latest tenure.desk event = some desk) :
    ∃ more, desk.shared.exchanges = tenure.desk.shared.exchanges ++ more := by
  cases event with
  | arrive handle host recordType =>
      simp only [deskStep] at stepped
      split at stepped <;> cases stepped
      exact ⟨[], (List.append_nil _).symm⟩
  | call index label =>
      rcases act_some stepped with ⟨caller, floor, moved, found, moves, rfl⟩
      refine ⟨[], ?_⟩
      rw [List.append_nil]
      cases call_step_moves moves <;> rfl
  | system action =>
      rcases desk_step_system stepped with ⟨_, system, _, rfl⟩
      exact ⟨_, rfl⟩

theorem desk_event_tenured (admitted : admits tenure event = true)
    (stepped : deskStep fromAscii config parse latest tenure.desk event = some desk)
    (tenured : Tenured fromAscii config parse permits tenure) :
    Tenured fromAscii config parse permits
      { tenure with desk := desk, tasks := tenure.tasks ++ spawned config event } := by
  have carries := admitted_carries admitted stepped
  have callers := admitted_callers admitted tenured.borrowed stepped
  have traced := desk_step_traced ⟨event, stepped⟩ tenured.traced
  rcases desk_step_exchanges stepped with ⟨more, exchanges⟩
  refine ⟨desk_step_sound ⟨event, stepped⟩ tenured.sound, traced, ?_, ?_, ?_, ?_, ?_⟩
  · exact carries.closed.trans (tenured.closed.trans carries.nobody.symm)
  · intro caller member pending
    rcases callers caller member with before | owned
    · exact carries.held (tenured.borrowed caller before pending)
    · exact carries.held owned
  · intro caller member err place
    rcases callers caller member with before | owned
    · dsimp only
      rw [exchanges]
      exact sourced_grows (tenured.answered caller before err place)
    · -- the handle it runs on keeps the queue open
      have accepting : desk.shared.system.dispatch.shared.closed = false := by
        rw [carries.closed, tenured.closed]
        exact List.isEmpty_eq_false_iff.mpr (List.ne_nil_of_mem owned)
      have mine := (traced.callers caller member).1
      rw [CallerTraced, place] at mine
      rcases mine with ⟨_, closed⟩ | sourced
      · exact absurd (accepting.symm.trans closed) (by decide)
      · exact sourced
  · rw [List.length_append, Nat.add_mul, ← tenured.crews]
    exact carries.crews
  · intro tasks member
    rcases List.mem_append.mp member with before | fresh
    · rcases tenured.tasks tasks before with runs | ⟨nobody, stopped⟩
      · exact .inl runs
      · refine .inr ⟨?_, ?_⟩
        · rw [← List.isEmpty_iff, carries.nobody, nobody]
          rfl
        · change ∀ phase ∈ desk.shared.system.dispatch.procs, phase = .stopped
          rw [carries.stopped nobody stopped]
          exact stopped
    · left
      cases event with
      | system action =>
          cases action with
          | finishInit handle => exact List.mem_singleton.mp fresh
          | _ => cases fresh
      | _ => cases fresh

theorem mem_held_dropped {handle other : ℕ} :
    other ∈ Tenure.held { tenure with dropped := handle :: tenure.dropped } ↔
      other ∈ tenure.held ∧ other ≠ handle := by
  rw [mem_held, mem_held]
  simp only [List.mem_cons, not_or]
  tauto

theorem drop_borrowed {handle : ℕ} (free : tenure.onLoan handle = false)
    (tenured : Tenured fromAscii config parse permits tenure) :
    ∀ caller ∈ tenure.desk.procs, ended caller = false →
      caller.handle ∈ Tenure.held { tenure with dropped := handle :: tenure.dropped } := by
  intro caller member pending
  refine mem_held_dropped.mpr ⟨tenured.borrowed caller member pending, ?_⟩
  intro same
  simp only [Tenure.onLoan, Bool.or_eq_false_iff, List.any_eq_false] at free
  exact free.1 caller member (by simp [same, pending])

/-- Dropping a handle: either another one is left, or the queue is closed. -/
theorem drop_tenured {handle : ℕ} {after : Tenure n lru}
    (stepped : tenureStep fromAscii config parse latest tenure (.drop handle) = some after)
    (tenured : Tenured fromAscii config parse permits tenure) :
    Tenured fromAscii config parse permits after := by
  simp only [tenureStep] at stepped
  split at stepped
  swap
  · cases stepped
  rename_i allowed
  simp only [Bool.and_eq_true, decide_eq_true_eq, Bool.not_eq_true'] at allowed
  rcases allowed with ⟨owned, free⟩
  have borrowed := drop_borrowed free tenured
  have accepting : tenure.dispatch.shared.closed = false := by
    rw [tenured.closed]
    exact List.isEmpty_eq_false_iff.mpr (List.ne_nil_of_mem owned)
  have runs : ∀ tasks ∈ tenure.tasks, tasks = ⟨config.adaptive, config.adaptive⟩ := by
    intro tasks member
    rcases tenured.tasks tasks member with runs | ⟨nobody, _⟩
    · exact runs
    · exact absurd nobody (List.ne_nil_of_mem owned)
  split at stepped
  · rename_i none
    rcases Option.map_eq_some_iff.mp stepped with ⟨desk, closes, rfl⟩
    have sound := desk_step_sound ⟨_, closes⟩ tenured.sound
    have traced := desk_step_traced ⟨_, closes⟩ tenured.traced
    rcases desk_step_exchanges closes with ⟨more, exchanges⟩
    rcases desk_step_system closes with ⟨_, system, moved, rfl⟩
    rcases system_step_around moved with ⟨_, shared, shuts, rfl⟩
    cases shuts
    refine ⟨sound, traced, none.symm, borrowed, ?_, tenured.crews, ?_⟩
    · intro caller member err place
      rw [exchanges]
      exact sourced_grows (tenured.answered caller member err place)
    · exact fun tasks member => .inl (runs tasks member)
  · rename_i some
    cases stepped
    refine ⟨tenured.sound, tenured.traced, ?_, borrowed, tenured.answered, tenured.crews, ?_⟩
    · exact accepting.trans (Bool.eq_false_iff.mpr some).symm
    · exact fun tasks member => .inl (runs tasks member)

theorem pool_gone (gone : poolAlive tenure = false) :
    tenure.held = [] ∧ ∀ phase ∈ tenure.dispatch.procs, phase = .stopped := by
  simp only [poolAlive, Bool.or_eq_false_iff, Bool.not_eq_false', List.isEmpty_iff,
    List.any_eq_false] at gone
  refine ⟨gone.1, ?_⟩
  intro phase member
  have halted := gone.2 phase member
  cases phase with
  | stopped => rfl
  | _ => exact absurd rfl halted

theorem tasks_tenured (tasks : List Tasks) (size : tasks.length = tenure.tasks.length)
    (gone : tenure.held = [] ∧ ∀ phase ∈ tenure.dispatch.procs, phase = .stopped)
    (tenured : Tenured fromAscii config parse permits tenure) :
    Tenured fromAscii config parse permits { tenure with tasks := tasks } where
  sound := tenured.sound
  traced := tenured.traced
  closed := tenured.closed
  borrowed := tenured.borrowed
  answered := tenured.answered
  crews := size ▸ tenured.crews
  tasks _ _ := .inr gone

/-- A controller that wakes up goes on, or ends with the pool. -/
theorem controller_cases {crew : ℕ} {after : Tenure n lru}
    (stepped : tenureStep fromAscii config parse latest tenure (.controller crew) = some after) :
    (poolAlive tenure = true ∧ after = tenure) ∨
    ∃ tasks, tenure.tasks[crew]? = some tasks ∧ poolAlive tenure = false ∧
      after = { tenure with tasks := tenure.tasks.set crew { tasks with controller := false } } := by
  rcases Option.bind_eq_some_iff.mp stepped with ⟨tasks, found, wakes⟩
  split at wakes
  · cases wakes
  split at wakes
  · rename_i alive
    cases wakes
    exact .inl ⟨alive, rfl⟩
  · rename_i gone
    cases wakes
    exact .inr ⟨tasks, found, Bool.eq_false_iff.mpr gone, rfl⟩

/-- A ticker that wakes up goes on, or ends with the pacer. -/
theorem ticker_cases {crew : ℕ} {after : Tenure n lru}
    (stepped : tenureStep fromAscii config parse latest tenure (.ticker crew) = some after) :
    (after = tenure ∧ ∃ tasks, tenure.tasks[crew]? = some tasks ∧
      pacerAlive config tenure crew tasks = true) ∨
    ∃ tasks, tenure.tasks[crew]? = some tasks ∧ tasks.ticker = true ∧
      pacerAlive config tenure crew tasks = false ∧
      after = { tenure with tasks := tenure.tasks.set crew { tasks with ticker := false } } := by
  rcases Option.bind_eq_some_iff.mp stepped with ⟨tasks, found, wakes⟩
  split at wakes
  · cases wakes
  rename_i ticking
  split at wakes
  · rename_i alive
    cases wakes
    exact .inl ⟨rfl, tasks, found, alive⟩
  · rename_i gone
    cases wakes
    exact .inr ⟨tasks, found, by simpa using ticking, Bool.eq_false_iff.mpr gone, rfl⟩

theorem controller_tenured {crew : ℕ} {after : Tenure n lru}
    (stepped : tenureStep fromAscii config parse latest tenure (.controller crew) = some after)
    (tenured : Tenured fromAscii config parse permits tenure) :
    Tenured fromAscii config parse permits after := by
  rcases controller_cases stepped with ⟨_, rfl⟩ | ⟨tasks, _, gone, rfl⟩
  · exact tenured
  · exact tasks_tenured _ List.length_set (pool_gone gone) tenured

theorem ticker_tenured {crew : ℕ} {after : Tenure n lru}
    (stepped : tenureStep fromAscii config parse latest tenure (.ticker crew) = some after)
    (tenured : Tenured fromAscii config parse permits tenure) :
    Tenured fromAscii config parse permits after := by
  rcases ticker_cases stepped with ⟨rfl, _⟩ | ⟨tasks, found, ticking, gone, rfl⟩
  · exact tenured
  · rcases tenured.tasks tasks (List.mem_of_getElem? found) with rfl | ended
    · -- the controller of this crew has not ended, so there never was one
      simp only [pacerAlive, Bool.or_eq_false_iff] at gone
      exact absurd (ticking.symm.trans gone.1) (by decide)
    · exact tasks_tenured _ List.length_set ended tenured

theorem tenure_step_tenured {after : Tenure n lru}
    (stepped : TenureSteps fromAscii config parse latest tenure after)
    (tenured : Tenured fromAscii config parse permits tenure) :
    Tenured fromAscii config parse permits after := by
  rcases stepped with ⟨event, stepped⟩
  cases event with
  | desk event =>
      simp only [tenureStep] at stepped
      split at stepped
      · rename_i admitted
        rcases Option.map_eq_some_iff.mp stepped with ⟨desk, moved, rfl⟩
        exact desk_event_tenured admitted moved tenured
      · cases stepped
  | drop handle => exact drop_tenured stepped tenured
  | controller crew => exact controller_tenured stepped tenured
  | ticker crew => exact ticker_tenured stepped tenured

theorem new_tenure_tenured {client : BlastDNSClient} (room : 0 < client.queueCapacity) :
    Tenured fromAscii client.config parse (max client.config.maxInflightPerResolver 1)
      (newTenure lru client) where
  sound := new_desk_sound room
  traced := new_desk_traced
  closed := rfl
  borrowed := by simp [newTenure, newDesk]
  answered := by simp [newTenure, newDesk]
  crews := by simp [newTenure, newDesk, newSystem, newDispatch, Tenure.dispatch]
  tasks := by simp [newTenure]

theorem reached_tenured {host : Host} {texts : List String} {client : BlastDNSClient}
    (accepted : withConfig host texts config = some (.ok client))
    {tenure : Tenure client.resolvers.length lru}
    (reached : Relation.ReflTransGen (TenureSteps fromAscii config parse latest)
      (newTenure lru client) tenure) :
    Tenured fromAscii config parse (max client.config.maxInflightPerResolver 1) tenure := by
  rcases with_config_ok accepted with ⟨_, _, _, sameConfig, capacity⟩
  rw [← sameConfig] at reached ⊢
  exact reachable_invariant
    (Tenured fromAscii client.config parse (max client.config.maxInflightPerResolver 1))
    (fun _ _ kept stepped => tenure_step_tenured stepped kept) reached
    (new_tenure_tenured (by omega))

/-- Every worker belongs to the crew of some initialiser. -/
theorem crew_tasks (tenured : Tenured fromAscii config parse permits tenure) {index : ℕ}
    {phase : Phase n} (found : tenure.dispatch.procs[index]? = some phase) :
    ∃ tasks ∈ tenure.tasks, tenure.tasks[index / crewSize config]? = some tasks := by
  rcases List.getElem?_eq_some_iff.mp found with ⟨inside, _⟩
  rw [tenured.crews] at inside
  have within : index / crewSize config < tenure.tasks.length :=
    Nat.div_lt_of_lt_mul (Nat.mul_comm _ _ ▸ inside)
  exact ⟨_, List.getElem_mem within, List.getElem?_eq_getElem within⟩

end Invariant

/-- A name with two dots in a row has an empty label. -/
def withoutEmptyLabels (host : String) : Except ProtoError Unit :=
  if ['.', '.'] <:+: host.toList then .error (.other "Malformed label: ") else .ok ()

def failureOf (caller : Caller) : Option BlastDNSError :=
  match caller.progress with
  | .returned (.error err) => some err
  | _ => none

section Released

variable {Wire : Type} {fromAscii : String → Except ProtoError Wire} {config : BlastDNSConfig}
variable {parse : String → Option Name} {latest permits : ℕ} {tenure after : Tenure n lru}
variable {event : TenureEvent n}

/-- What an event is to the workers once no handle is left. -/
def beneath : TenureEvent n → Event n
  | .desk (.system (.worker index label)) => .worker index label
  | .desk (.system (.around environment)) => .around environment
  | _ => .around (.elapse 0)

/-- With no handle left only the workers, the time and the tasks go on. -/
theorem released_desk_step {event : DeskEvent n} {desk : Desk n lru}
    (tenured : Tenured fromAscii config parse permits tenure) (nobody : tenure.held = [])
    (admitted : admits tenure event = true)
    (moved : deskStep fromAscii config parse latest tenure.desk event = some desk) :
    dispatchStep fromAscii tenure.dispatch (beneath (.desk event)) =
        some desk.shared.system.dispatch ∧
      (∀ query, beneath (.desk event) ≠ .around (.enqueue query)) ∧
      (∀ index label, event ≠ .call index label) ∧ spawned config event = [] := by
  have unowned : ∀ handle : ℕ, handle ∉ tenure.held := by simp [nobody]
  cases event with
  | arrive handle host recordType => exact absurd (of_decide_eq_true admitted) (unowned handle)
  | call index label =>
      -- a call that could move would have a handle
      rcases act_some moved with ⟨caller, floor, next, found, moves, rfl⟩
      have pending := (moves_borrowed (call_step_moves moves)).2
      exact absurd (tenured.borrowed caller (List.mem_of_getElem? found) pending) (unowned _)
  | system action =>
      rcases desk_step_system moved with ⟨free, system, steps, rfl⟩
      cases action with
      | clone handle => exact absurd (of_decide_eq_true admitted) (unowned handle)
      | startInit handle => exact absurd (of_decide_eq_true admitted) (unowned handle)
      | cancelInit handle => exact absurd (of_decide_eq_true admitted) (unowned handle)
      | finishInit handle => exact absurd (of_decide_eq_true admitted) (unowned handle)
      | submit handle query => exact absurd rfl (free handle query)
      | worker index label =>
          rcases Option.map_eq_some_iff.mp steps with ⟨dispatch, acted, rfl⟩
          exact ⟨acted, by simp [beneath], by simp, rfl⟩
      | around environment =>
          rcases system_step_around steps with ⟨idle, shared, around, rfl⟩
          refine ⟨?_, ?_, by simp, rfl⟩
          · simp only [beneath, dispatchStep, Tenure.dispatch, around, Option.map_some]
          · intro query enqueued
            cases enqueued
            exact idle query rfl

theorem released_step (tenured : Tenured fromAscii config parse permits tenure)
    (nobody : tenure.held = [])
    (stepped : tenureStep fromAscii config parse latest tenure event = some after) :
    after.held = [] ∧
      dispatchStep fromAscii tenure.dispatch (beneath event) = some after.dispatch ∧
      (∀ query, beneath event ≠ .around (.enqueue query)) ∧
      (∀ index label, event ≠ .desk (.call index label)) ∧
      after.tasks.length = tenure.tasks.length := by
  cases event with
  | desk event =>
      simp only [tenureStep] at stepped
      split at stepped
      swap
      · cases stepped
      rename_i admitted
      rcases Option.map_eq_some_iff.mp stepped with ⟨desk, moved, rfl⟩
      rcases released_desk_step tenured nobody admitted moved with ⟨beneath, idle, called, none⟩
      refine ⟨?_, beneath, idle, ?_, ?_⟩
      · rw [← List.isEmpty_iff, (admitted_carries admitted moved).nobody, nobody]
        rfl
      · intro index label same
        cases same
        exact called index label rfl
      · rw [none, List.append_nil]
  | drop handle =>
      simp [tenureStep, nobody] at stepped
  | controller crew =>
      rcases controller_cases stepped with ⟨_, rfl⟩ | ⟨tasks, _, _, rfl⟩
      · exact ⟨nobody, rfl, by simp [beneath], by simp, rfl⟩
      · exact ⟨nobody, rfl, by simp [beneath], by simp, List.length_set⟩
  | ticker crew =>
      rcases ticker_cases stepped with ⟨rfl, _⟩ | ⟨tasks, _, _, _, rfl⟩
      · exact ⟨nobody, rfl, by simp [beneath], by simp, rfl⟩
      · exact ⟨nobody, rfl, by simp [beneath], by simp, List.length_set⟩

/-- Once ended a task stays ended. -/
theorem ended_step (tenured : Tenured fromAscii config parse permits tenure)
    (nobody : tenure.held = [])
    (stepped : tenureStep fromAscii config parse latest tenure event = some after)
    {crew : ℕ} {tasks : Tasks} (found : after.tasks[crew]? = some tasks) :
    ∃ earlier, tenure.tasks[crew]? = some earlier ∧
      (earlier.controller = false → tasks.controller = false) ∧
      (earlier.ticker = false → tasks.ticker = false) := by
  have changed : ∀ {index : ℕ} {old new : Tasks}, tenure.tasks[index]? = some old →
      after.tasks = tenure.tasks.set index new →
      (old.controller = false → new.controller = false) →
      (old.ticker = false → new.ticker = false) →
      ∃ earlier, tenure.tasks[crew]? = some earlier ∧
        (earlier.controller = false → tasks.controller = false) ∧
        (earlier.ticker = false → tasks.ticker = false) := by
    intro index old new here same controller ticker
    rw [same] at found
    by_cases mine : index = crew
    · subst mine
      rw [List.getElem?_set_self (List.getElem?_eq_some_iff.mp here).1] at found
      cases found
      exact ⟨old, here, controller, ticker⟩
    · rw [List.getElem?_set_ne mine] at found
      exact ⟨tasks, found, id, id⟩
  cases event with
  | desk event =>
      simp only [tenureStep] at stepped
      split at stepped
      swap
      · cases stepped
      rename_i admitted
      rcases Option.map_eq_some_iff.mp stepped with ⟨desk, moved, rfl⟩
      rcases released_desk_step tenured nobody admitted moved with ⟨_, _, _, none⟩
      dsimp only at found
      rw [none, List.append_nil] at found
      exact ⟨tasks, found, id, id⟩
  | drop handle => simp [tenureStep, nobody] at stepped
  | controller crew =>
      rcases controller_cases stepped with ⟨_, rfl⟩ | ⟨old, here, _, rfl⟩
      · exact ⟨tasks, found, id, id⟩
      · exact changed here rfl (fun _ => rfl) id
  | ticker crew =>
      rcases ticker_cases stepped with ⟨rfl, _⟩ | ⟨old, here, _, _, rfl⟩
      · exact ⟨tasks, found, id, id⟩
      · exact changed here rfl id (fun _ => rfl)

end Released

section Fair

variable {Wire : Type} {fromAscii : String → Except ProtoError Wire} {config : BlastDNSConfig}
variable {parse : String → Option Name} {latest permits : ℕ}

/-- Time passes, where a worker or a call can move for ever somebody does, and a task that
runs on wakes up again. -/
structure FairTenure (fromAscii : String → Except ProtoError Wire) (config : BlastDNSConfig)
    (parse : String → Option Name) (latest : ℕ) (inputs : ℕ → TenureEvent n)
    (states : ℕ → Tenure n lru) : Prop where
  run : Run (tenureStep fromAscii config parse latest) inputs states
  passes : ∀ boundNs, ∃ time, boundNs ≤ (states time).dispatch.shared.nowNs
  moves : ∀ start,
    (∀ time, start ≤ time → DeskEnabled fromAscii config parse latest (states time).desk) →
      ∃ time event, start ≤ time ∧ inputs time = .desk event ∧ Moving event
  controls : ∀ start crew, (∀ time, start ≤ time →
      ∃ tasks, (states time).tasks[crew]? = some tasks ∧ tasks.controller = true) →
    ∃ time, start ≤ time ∧ inputs time = .controller crew
  ticks : ∀ start crew, (∀ time, start ≤ time →
      ∃ tasks, (states time).tasks[crew]? = some tasks ∧ tasks.ticker = true) →
    ∃ time, start ≤ time ∧ inputs time = .ticker crew

variable {inputs : ℕ → TenureEvent n} {states : ℕ → Tenure n lru}
variable (fair : FairTenure fromAscii config parse latest inputs states)
variable (start : Tenured fromAscii config parse permits (states 0))
variable (nobody : (states 0).held = [])

include fair start nobody

theorem fair_released (time : ℕ) :
    Tenured fromAscii config parse permits (states time) ∧ (states time).held = [] ∧
      (states time).tasks.length = (states 0).tasks.length := by
  induction time with
  | zero => exact ⟨start, nobody, rfl⟩
  | succ time ih =>
      rcases ih with ⟨tenured, none, size⟩
      rcases released_step tenured none (fair.run time) with ⟨still, _, _, _, same⟩
      exact ⟨tenure_step_tenured ⟨_, fair.run time⟩ tenured, still, same.trans size⟩

theorem fair_beneath :
    FairRun fromAscii (fun time => beneath (inputs time)) fun time => (states time).dispatch := by
  have steps := fun time =>
    have released := fair_released fair start nobody time
    released_step released.1 released.2.1 (fair.run time)
  refine ⟨fun time => (steps time).2.1, fun time => (steps time).2.2.1, fair.passes, ?_⟩
  intro since able
  rcases fair.moves since fun time later => .inl (able time later) with
    ⟨time, event, later, here, ⟨index, label, rfl⟩ | ⟨index, label, rfl⟩⟩
  · exact absurd here ((steps time).2.2.2.1 index label)
  · exact ⟨time, later, index, label, by simp only [here, beneath]⟩

/-- A task that is bound to end at its next wake-up ends. -/
theorem fair_task_ends (flag : Tasks → Bool) (wakeup : ℕ → TenureEvent n) (settled crew : ℕ)
    (lasts : ∀ earlier tasks : Tasks, (earlier.controller = false → tasks.controller = false) →
      (earlier.ticker = false → tasks.ticker = false) → flag earlier = false → flag tasks = false)
    (wakes : ∀ since, (∀ time, since ≤ time →
        ∃ tasks, (states time).tasks[crew]? = some tasks ∧ flag tasks = true) →
      ∃ time, since ≤ time ∧ inputs time = wakeup crew)
    (ends : ∀ time, settled ≤ time → inputs time = wakeup crew →
      ∀ tasks, (states (time + 1)).tasks[crew]? = some tasks → flag tasks = false) :
    ∃ ended, ∀ time, ended ≤ time →
      ∀ tasks, (states time).tasks[crew]? = some tasks → flag tasks = false := by
  by_cases finished : ∃ ended, settled ≤ ended ∧
      ∀ tasks, (states ended).tasks[crew]? = some tasks → flag tasks = false
  · rcases finished with ⟨ended, _, done⟩
    refine ⟨ended, ?_⟩
    intro time later
    induction time, later using Nat.le_induction with
    | base => exact done
    | succ time later ih =>
        intro tasks found
        rcases fair_released fair start nobody time with ⟨tenured, none, _⟩
        rcases ended_step tenured none (fair.run time) found with
          ⟨earlier, here, controller, ticker⟩
        exact lasts earlier tasks controller ticker (ih earlier here)
  · push Not at finished
    rcases wakes settled fun time later => by
      rcases finished time later with ⟨tasks, found, runs⟩
      exact ⟨tasks, found, by simpa using runs⟩ with ⟨time, later, wakes⟩
    rcases finished (time + 1) (later.trans (Nat.le_succ time)) with ⟨tasks, found, runs⟩
    exact absurd (ends time later wakes tasks found) runs

theorem fair_controllers_end {settled : ℕ} (stopped : ∀ time, settled ≤ time →
      ∀ phase ∈ (states time).dispatch.procs, phase = .stopped) (crew : ℕ) :
    ∃ ended, ∀ time, ended ≤ time →
      ∀ tasks, (states time).tasks[crew]? = some tasks → tasks.controller = false := by
  refine fair_task_ends fair start nobody Tasks.controller .controller settled crew
    (fun _ _ controller _ => controller) (fun since => fair.controls since crew) ?_
  intro time later wakes tasks found
  have stepped := fair.run time
  rw [wakes] at stepped
  rcases controller_cases stepped with ⟨alive, _⟩ | ⟨old, here, _, same⟩
  · -- neither a handle nor a worker owns the pool any more
    simp only [poolAlive, (fair_released fair start nobody time).2.1, List.isEmpty_nil,
      Bool.not_true, Bool.false_or, List.any_eq_true] at alive
    rcases alive with ⟨phase, member, runs⟩
    rw [stopped time later phase member] at runs
    cases runs
  · rw [same] at found
    dsimp only at found
    rw [List.getElem?_set_self (List.getElem?_eq_some_iff.mp here).1] at found
    cases found
    rfl

theorem fair_tickers_end (settled crew : ℕ) (stopped : ∀ time, settled ≤ time →
      ∀ phase ∈ (states time).dispatch.procs, phase = .stopped)
    (controlled : ∀ time, settled ≤ time →
      ∀ tasks, (states time).tasks[crew]? = some tasks → tasks.controller = false) :
    ∃ ended, ∀ time, ended ≤ time →
      ∀ tasks, (states time).tasks[crew]? = some tasks → tasks.ticker = false := by
  refine fair_task_ends fair start nobody Tasks.ticker .ticker settled crew
    (fun _ _ _ ticker => ticker) (fun since => fair.ticks since crew) ?_
  intro time later wakes tasks found
  have stepped := fair.run time
  rw [wakes] at stepped
  rcases ticker_cases stepped with ⟨_, old, here, alive⟩ | ⟨old, here, _, _, same⟩
  · simp only [pacerAlive, controlled time later old here, Bool.false_or, List.any_eq_true] at alive
    rcases alive with ⟨phase, member, runs⟩
    rw [stopped time later phase (List.mem_of_mem_drop (List.mem_of_mem_take member))] at runs
    cases runs
  · rw [same] at found
    dsimp only at found
    rw [List.getElem?_set_self (List.getElem?_eq_some_iff.mp here).1] at found
    cases found
    rfl

theorem fair_tasks_end (small : n ≤ 2 ^ 64) (positive : 0 < permits) :
    ∃ settled, ∀ time, settled ≤ time → (states time).dispatch.shared.queue = [] ∧
      (∀ phase ∈ (states time).dispatch.procs, phase = .stopped) ∧
      ∀ tasks ∈ (states time).tasks, tasks = ⟨false, false⟩ := by
  have closed : (states 0).dispatch.shared.closed = true := by
    rw [start.closed, nobody]
    rfl
  rcases fair_stops (fair_beneath fair start nobody) small positive
    start.sound.serving.standing closed with ⟨settled, stops⟩
  have each : ∀ crew : ℕ, ∀ᶠ time in Filter.atTop, ∀ tasks : Tasks,
      (states time).tasks[crew]? = some tasks →
        tasks.controller = false ∧ tasks.ticker = false := by
    intro crew
    rcases fair_controllers_end fair start nobody (fun time later => (stops time later).2) crew with
      ⟨controlled, controllers⟩
    rcases fair_tickers_end fair start nobody (max settled controlled) crew
      (fun time later => (stops time (le_of_max_le_left later)).2)
      (fun time later => controllers time (le_of_max_le_right later)) with ⟨ticked, tickers⟩
    filter_upwards [Filter.eventually_ge_atTop controlled, Filter.eventually_ge_atTop ticked]
      with time afterControlled afterTicked tasks found
    exact ⟨controllers time afterControlled tasks found, tickers time afterTicked tasks found⟩
  have all := (Filter.eventually_all_finset (Finset.range (states 0).tasks.length)).mpr
    fun crew _ => each crew
  rcases Filter.eventually_atTop.mp (all.and (Filter.eventually_ge_atTop settled)) with
    ⟨final, ends⟩
  refine ⟨final, ?_⟩
  intro time later
  rcases ends time later with ⟨ended, afterSettled⟩
  rcases stops time afterSettled with ⟨queue, stopped⟩
  refine ⟨queue, stopped, ?_⟩
  intro tasks member
  rcases List.mem_iff_getElem?.mp member with ⟨crew, found⟩
  have inside : crew < (states 0).tasks.length := by
    rw [← (fair_released fair start nobody time).2.2]
    exact (List.getElem?_eq_some_iff.mp found).1
  rcases ended crew (Finset.mem_range.mpr inside) tasks found with ⟨controller, ticker⟩
  cases tasks
  cases controller
  cases ticker
  rfl

end Fair

/-- From the moment the last handle is dropped, on every schedule that keeps going: what is
still queued is answered, once for every channel ever opened, the workers end, and so do
all controllers and tickers. -/
theorem released_client_ends {Wire : Type} (fromAscii : String → Except ProtoError Wire)
    {host : Host} {texts : List String} {config : BlastDNSConfig} {client : BlastDNSClient}
    (accepted : withConfig host texts config = some (.ok client))
    (small : client.resolvers.length ≤ 2 ^ 64)
    {parse : String → Option Name} {latest : ℕ} {tenure : Tenure client.resolvers.length lru}
    (reached : Relation.ReflTransGen (TenureSteps fromAscii config parse latest)
      (newTenure lru client) tenure)
    (nobody : tenure.held = []) {inputs : ℕ → TenureEvent client.resolvers.length}
    {states : ℕ → Tenure client.resolvers.length lru} (start : states 0 = tenure)
    (fair : FairTenure fromAscii config parse latest inputs states) :
    ∃ settled, ∀ time, settled ≤ time →
      (states time).dispatch.shared.queue = [] ∧
      (∀ responder, responder < tenure.dispatch.shared.opened →
        responses (states time).dispatch responder = 1) ∧
      (∀ phase ∈ (states time).dispatch.procs, phase = .stopped) ∧
      ∀ tasks ∈ (states time).tasks, tasks = ⟨false, false⟩ := by
  have tenured := reached_tenured accepted reached
  subst start
  rcases fair_tasks_end fair tenured nobody small (by omega) with ⟨settled, ends⟩
  refine ⟨settled, ?_⟩
  intro time later
  rcases ends time later with ⟨queue, stopped, tasks⟩
  refine ⟨queue, ?_, stopped, tasks⟩
  intro responder opened
  have standing := (fair_released fair tenured nobody time).1.sound.serving.standing
  apply drained_answered standing ⟨queue, fun phase member => .inr (stopped phase member)⟩
  have same := (fair_opened (fair_beneath fair tenured nobody) time).1
  exact opened.trans_eq same.symm

section Rests

variable {Wire : Type} {fromAscii : String → Except ProtoError Wire} {config : BlastDNSConfig}
variable {parse : String → Option Name} {latest : ℕ} {last : Tenure n lru}

def Tenure.over (tenure : Tenure n lru) : Bool :=
  !tenure.dispatch.procs.any running && tenure.desk.procs.all ended &&
    tenure.tasks.all (· = ⟨false, false⟩)

def tenureElapsed (tenure : Tenure n lru) (nanos : ℕ) : Tenure n lru :=
  { tenure with desk := deskElapsed tenure.desk nanos }

theorem over_not_enabled (ends : last.over = true) :
    ¬ DeskEnabled fromAscii config parse latest last.desk := by
  simp only [Tenure.over, Bool.and_eq_true, List.all_eq_true, Bool.not_eq_true',
    List.any_eq_false] at ends
  rcases ends with ⟨⟨stopped, calls⟩, _⟩
  rintro (⟨index, label, after, acted⟩ | ⟨index, later, acted⟩)
  · rcases act_some acted with ⟨phase, shared, moved, found, stepped, _⟩
    have halted := stopped phase (List.mem_of_getElem? found)
    cases phase with
    | stopped => cases stepped
    | _ => exact absurd rfl halted
  · rcases act_some acted with ⟨caller, floor, moved, found, stepped, _⟩
    have done := calls caller (List.mem_of_getElem? found)
    rw [(moves_borrowed (call_step_moves stepped)).2] at done
    cases done

/-- A script that leaves nothing to do is the start of a fair run. -/
theorem fair_tenure_after_script {first : Tenure n lru} {script : List (TenureEvent n)}
    (played : script.foldlM (tenureStep fromAscii config parse latest) first = some last)
    (ends : last.over = true) :
    ∃ inputs states, states 0 = first ∧ FairTenure fromAscii config parse latest inputs states := by
  have waits : Run (tenureStep fromAscii config parse latest)
      (fun _ => .desk (.system (.around (.elapse 1)))) (tenureElapsed last) := by
    intro time
    simp [tenureStep, admits, spawned, deskStep, systemStep, dispatchTo, dispatchStep,
      environmentStep, tenureElapsed, deskElapsed, elapsed, noted, Nat.add_assoc]
  have reaches : script.foldlM (tenureStep fromAscii config parse latest) first =
      some (tenureElapsed last 0) := played
  have quiet : ∀ tasks ∈ last.tasks, tasks = ⟨false, false⟩ := by
    simp only [Tenure.over, Bool.and_eq_true, List.all_eq_true, decide_eq_true_eq] at ends
    exact ends.2
  rcases run_after_replay (tenureElapsed last) reaches waits with
    ⟨inputs, states, start, run, _, reached⟩
  refine ⟨inputs, states, start, run, ?_, ?_, ?_, ?_⟩
  · intro boundNs
    refine ⟨script.length + boundNs, ?_⟩
    rw [reached boundNs]
    exact Nat.le_add_left boundNs _
  · intro since able
    have stuck : ¬ DeskEnabled fromAscii config parse latest (states (script.length + since)).desk := by
      rw [reached since]
      exact over_not_enabled ends
    exact absurd (able _ (Nat.le_add_left since script.length)) stuck
  · intro since crew runs
    rcases runs _ (Nat.le_add_left since script.length) with ⟨tasks, found, going⟩
    rw [reached since] at found
    rw [quiet tasks (List.mem_of_getElem? found)] at going
    cases going
  · intro since crew runs
    rcases runs _ (Nat.le_add_left since script.length) with ⟨tasks, found, going⟩
    rw [reached since] at found
    rw [quiet tasks (List.mem_of_getElem? found)] at going
    cases going

end Rests

/-- A call is given up after its query was queued, and the client dropped: the query is
still sent and answered, and then everything ends. -/
theorem released_client_ends_queued :
    ∃ (inputs : ℕ → TenureEvent 1)
      (states : ℕ → Tenure 1 (listed : LruCache (String × ℕ) CacheEntry)),
      (states 0).held = [] ∧ (states 0).dispatch.shared.queue.length = 1 ∧
      (states 0).tasks = [⟨true, true⟩] ∧
      FairTenure anyName narrowConfig some (10 ^ 30) inputs states ∧
      ∃ settled, responses (states settled).dispatch 0 = 1 ∧
        ∀ tasks ∈ (states settled).tasks, tasks = ⟨false, false⟩ := by
  let begun : List (TenureEvent 1) :=
    [.desk (.system (.startInit 0)), .desk (.system (.finishInit 0)), .desk (.system (.clone 0)),
      .desk (.arrive 0 "a.example" 1), .desk (.call 0 .proceed), .desk (.call 0 .proceed),
      .desk (.call 0 .proceed), .drop 1, .desk (.call 0 .cancel), .drop 0]
  let script : List (TenureEvent 1) :=
    List.replicate 10 (.desk (.system (.worker 0 .proceed))) ++
      .desk (.system (.worker 0 (.answer (.ok shortAnswer)))) ::
        List.replicate 4 (.desk (.system (.worker 0 .proceed))) ++ [.controller 0, .ticker 0]
  have ready : (begun.foldlM (tenureStep anyName narrowConfig some (10 ^ 30))
      (newTenure (listed : LruCache (String × ℕ) CacheEntry) narrowClient)).map
        (fun tenure => (tenure.held, tenure.dispatch.shared.queue.length, tenure.tasks,
          tenure.dispatch.shared.opened,
          (script.foldlM (tenureStep anyName narrowConfig some (10 ^ 30)) tenure).map
            Tenure.over)) =
      some ([], 1, [⟨true, true⟩], 1, some true) := by
    decide
  rcases Option.map_eq_some_iff.mp ready with ⟨tenure, replayed, seen⟩
  simp only [Prod.mk.injEq] at seen
  rcases seen with ⟨nobody, queued, tasks, opened, finished⟩
  rcases Option.map_eq_some_iff.mp finished with ⟨last, played, ends⟩
  rcases fair_tenure_after_script played ends with ⟨inputs, states, start, fair⟩
  rcases released_client_ends anyName (plain_client_accepted rfl bare_texts rfl rfl) (by decide)
    (replay_reaches replayed) nobody start fair with ⟨settled, settles⟩
  rcases settles settled le_rfl with ⟨_, answered, _, ended⟩
  have asked : 0 < tenure.dispatch.shared.opened := Nat.one_pos.trans_eq opened.symm
  subst start
  exact ⟨inputs, states, nobody, queued, tasks, fair, settled, answered 0 asked, ended⟩

end BlastDns.Lifetime
