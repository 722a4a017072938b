import BlastDns.Descent
import BlastDns.GlobalCap
import BlastDns.Handling

/-!
The queue drains. Nothing is stuck: whoever waits for a permit waits for a
worker that can move, whoever sleeps is woken by time, and a worker stops only
on a closed and empty queue. Nothing runs in circles either (`Descent`). So
once callers stop submitting, every schedule that keeps moving some worker that
can move answers every channel there is, whatever the network replies.
-/

namespace BlastDns.Drain

open Accounting Client Config Crew Descent GlobalCap Handling Health NetText Politeness Runs Worker

variable {n : ℕ} {Name : Type} {fromAscii : String → Except ProtoError Name}

section Stuck

def Drained (dispatch : Dispatch n) : Prop :=
  dispatch.shared.queue = [] ∧ ∀ phase ∈ dispatch.procs, phase = .idle ∨ phase = .stopped

/-- Some worker can take its next step, given the answer it waits for. -/
def Enabled (fromAscii : String → Except ProtoError Name) (dispatch : Dispatch n) : Prop :=
  ∃ index label after, act (workerStep fromAscii) dispatch index label = some after

structure Standing (permits : ℕ) (dispatch : Dispatch n) : Prop where
  accounted : Accounted permits dispatch
  stopped : Phase.stopped ∈ dispatch.procs →
    dispatch.shared.closed = true ∧ dispatch.shared.queue = []
  staffed : dispatch.procs = [] → dispatch.shared.queue = []

variable {dispatch : Dispatch n} {permits : ℕ} {phase : Phase n}

theorem enabled_of_step (label : Label) (member : phase ∈ dispatch.procs)
    (steps : (workerStep fromAscii dispatch.shared phase label).isSome = true) :
    Enabled fromAscii dispatch := by
  rcases List.mem_iff_getElem?.mp member with ⟨index, found⟩
  rcases Option.isSome_iff_exists.mp steps with ⟨⟨shared, moved⟩, stepped⟩
  exact ⟨index, label, _, act_of_step found stepped⟩

/-- A holder depends on nobody but the network. -/
theorem holder_enabled {i : Fin n} (member : phase ∈ dispatch.procs)
    (holding : holds i phase = true) : Enabled fromAscii dispatch := by
  cases phase with
  | idle => cases holding
  | stopped => cases holding
  | releasing j => exact enabled_of_step .proceed member rfl
  | working item stage =>
      cases stage
      case holding j hold =>
        cases hold with
        | querying startedNs =>
            exact enabled_of_step (.answer (.error .noResolvers)) member rfl
        | refetching startedNs udp =>
            exact enabled_of_step (.refetched none) member rfl
        | arrived startedNs result =>
            apply enabled_of_step .proceed member
            cases result with
            | error err => rfl
            | ok response =>
                simp only [workerStep, holdStep, Option.isSome_map]
                split <;> rfl
        | granted => exact enabled_of_step .proceed member rfl
        | confirming => exact enabled_of_step .proceed member rfl
        | reserved => exact enabled_of_step .proceed member rfl
        | rated => exact enabled_of_step .proceed member rfl
        | ready => exact enabled_of_step .proceed member rfl
        | completed startedNs response => exact enabled_of_step .proceed member rfl
        | recorded result => exact enabled_of_step .proceed member rfl
      all_goals cases holding

/-- If no permit is free, somebody holds one. -/
theorem waiting_enabled {item : WorkItem} {i : Fin n} (accounted : Accounted permits dispatch)
    (some : 0 < permits) (member : Phase.working item (.waiting i) ∈ dispatch.procs) :
    Enabled fromAscii dispatch := by
  by_cases free : (dispatch.shared.pool i).inflight = 0
  · have balance := accounted.permits i
    rw [total, sum_mark, freePermits, free] at balance
    have held : 0 < dispatch.procs.countP (holds i) := by omega
    rcases List.countP_pos_iff.mp held with ⟨holder, present, holding⟩
    exact holder_enabled present holding
  · apply enabled_of_step .proceed member
    simp [workerStep, stageStep, ResolverHealth.tryAcquire, free]

theorem stage_enabled {item : WorkItem} {stage : Stage n} (accounted : Accounted permits dispatch)
    (some : 0 < permits) (member : Phase.working item stage ∈ dispatch.procs)
    (awake : ∀ untilNs, stage = .sleeping untilNs → untilNs ≤ dispatch.shared.nowNs) :
    Enabled fromAscii dispatch := by
  cases stage with
  | received =>
      apply enabled_of_step .proceed member
      simp only [workerStep, stageStep]
      split <;> rfl
  | pacing => exact enabled_of_step .proceed member rfl
  | reserving =>
      apply enabled_of_step .proceed member
      simp only [workerStep, stageStep]
      split <;> rfl
  | visiting scan =>
      apply enabled_of_step .proceed member
      simp only [workerStep, stageStep]
      split
      · split <;> rfl
      · rfl
  | checking scan i =>
      apply enabled_of_step .proceed member
      simp only [workerStep, stageStep]
      split <;> rfl
  | trying scan i =>
      apply enabled_of_step .proceed member
      simp only [workerStep, stageStep]
      split <;> rfl
  | sleeping untilNs =>
      apply enabled_of_step .proceed member
      simp [workerStep, stageStep, awake untilNs rfl]
  | waiting i => exact waiting_enabled accounted some member
  | holding i hold =>
      exact holder_enabled (i := i) member (by simp [holds])

/-- Once the sleepers are due, work that is left can go on. -/
theorem work_left_enabled (standing : Standing permits dispatch) (some : 0 < permits)
    (awake : ∀ item untilNs, Phase.working item (.sleeping untilNs) ∈ dispatch.procs →
      untilNs ≤ dispatch.shared.nowNs)
    (left : ¬ Drained dispatch) : Enabled fromAscii dispatch := by
  by_cases resting : ∀ phase ∈ dispatch.procs, phase = .idle ∨ phase = .stopped
  · -- all at rest, so the queue is not empty and somebody is there to receive
    have waiting : dispatch.shared.queue ≠ [] := fun empty => left ⟨empty, resting⟩
    rcases List.exists_cons_of_ne_nil waiting with ⟨item, rest, queued⟩
    rcases List.exists_mem_of_ne_nil _ (mt standing.staffed waiting) with ⟨phase, member⟩
    rcases resting phase member with rfl | rfl
    · apply enabled_of_step .proceed member
      simp [workerStep, queued]
    · exact absurd (standing.stopped member).2 waiting
  · push Not at resting
    rcases resting with ⟨phase, member, busy, running⟩
    cases phase with
    | idle => exact absurd rfl busy
    | stopped => exact absurd rfl running
    | releasing i => exact holder_enabled (i := i) member (by simp [holds])
    | working item stage =>
        refine stage_enabled standing.accounted some member ?_
        rintro untilNs rfl
        exact awake item untilNs member

end Stuck

section Standing

variable {dispatch after : Dispatch n} {permits : ℕ}

theorem worker_act_standing {index : ℕ} {label : Label}
    (acted : act (workerStep fromAscii) dispatch index label = some after)
    (standing : Standing permits dispatch) : Standing permits after := by
  have accounted := steps_accounted ⟨.worker index label, acted⟩ standing.accounted
  have size := act_length acted
  rcases act_some acted with ⟨old, shared, new, found, stepped, rfl⟩
  rcases worker_step_handles stepped with ⟨handled, framed⟩
  have shorter : dispatch.shared.queue = [] → shared.queue = [] := by
    intro empty
    cases handled with
    | receives queued => exact absurd (queued.symm.trans empty) (by simp)
    | stops _ _ same => exact same ▸ empty
    | works queue => exact queue.trans empty
    | refuses _ queue => exact queue.trans empty
    | answers queue => exact queue.trans empty
    | releases queue => exact queue.trans empty
  refine ⟨accounted, ?_, ?_⟩
  · intro member
    rw [framed.closed]
    rcases List.mem_or_eq_of_mem_set member with before | here
    · exact ⟨(standing.stopped before).1, shorter (standing.stopped before).2⟩
    · subst here
      cases handled with
      | stops closed empty same => exact ⟨closed, same ▸ empty⟩
  · intro nobody
    have none : dispatch.procs.length = 0 := by rw [← size, nobody, List.length_nil]
    exact shorter (standing.staffed (List.length_eq_zero_iff.mp none))

theorem around_standing {environment : Environment n}
    (stepped : dispatchStep fromAscii dispatch (.around environment) = some after)
    (staffed : ∀ query, environment = .enqueue query → dispatch.procs ≠ [])
    (standing : Standing permits dispatch) : Standing permits after := by
  have accounted := steps_accounted ⟨_, stepped⟩ standing.accounted
  rcases Option.map_eq_some_iff.mp stepped with ⟨shared, moved, rfl⟩
  refine ⟨accounted, ?_, ?_⟩
  · intro member
    rcases standing.stopped member with ⟨closed, empty⟩
    cases environment_step_surrounds moved with
    | enqueues accepting => exact absurd (closed.symm.trans accepting) (by decide)
    | leaves _ queue _ _ shut => exact ⟨shut closed, queue.trans empty⟩
  · intro nobody
    cases environment_step_surrounds moved with
    | enqueues => exact absurd nobody (staffed _ rfl)
    | leaves _ queue => exact queue.trans (standing.staffed nobody)

theorem dispatch_standing {event : Event n}
    (stepped : dispatchStep fromAscii dispatch event = some after)
    (staffed : ∀ query, event = .around (.enqueue query) → dispatch.procs ≠ [])
    (standing : Standing permits dispatch) : Standing permits after := by
  cases event with
  | worker index label => exact worker_act_standing stepped standing
  | around environment =>
      refine around_standing stepped ?_ standing
      rintro query rfl
      exact staffed query rfl

/-- A handle that has been used has workers behind it. -/
structure Serving (permits : ℕ) (system : System n) : Prop where
  standing : Standing permits system.dispatch
  staffed : Cell.set ∈ system.handles → system.dispatch.procs ≠ []

theorem dispatch_to_serving {system after : System n} {event : Event n}
    (stepped : dispatchTo fromAscii system event = some after)
    (used : ∀ query, event = .around (.enqueue query) → Cell.set ∈ system.handles)
    (serving : Serving permits system) : Serving permits after := by
  rcases Option.map_eq_some_iff.mp stepped with ⟨dispatch, moved, rfl⟩
  have size : dispatch.procs.length = system.dispatch.procs.length := steps_length ⟨event, moved⟩
  refine ⟨dispatch_standing moved ?_ serving.standing, ?_⟩
  · exact fun query submitted => serving.staffed (used query submitted)
  · intro set
    have some := List.length_pos_iff.mpr (serving.staffed set)
    exact List.length_pos_iff.mp (size ▸ some)

theorem hire_serving {config : BlastDNSConfig} {system : System n} {handles : List Cell}
    (serving : Serving permits system) :
    Serving permits (spawnAll config { system with handles := handles }) := by
  have staffed : (spawnAll config { system with handles := handles }).dispatch.procs ≠ [] := by
    simp [spawnAll, hire]
  refine ⟨⟨hire_accounted serving.standing.accounted _, ?_, ?_⟩, fun _ => staffed⟩
  · intro member
    rcases List.mem_append.mp member with before | fresh
    · exact serving.standing.stopped before
    · exact absurd (List.eq_of_mem_replicate fresh) (by simp)
  · exact fun nobody => absurd nobody staffed

theorem system_step_serving {config : BlastDNSConfig} {system after : System n}
    (stepped : SystemSteps fromAscii config system after) (serving : Serving permits system) :
    Serving permits after := by
  rcases stepped with ⟨action, stepped⟩
  cases action with
  | clone handle =>
      rcases Option.map_eq_some_iff.mp stepped with ⟨cell, found, rfl⟩
      refine ⟨serving.standing, ?_⟩
      intro member
      rcases List.mem_append.mp member with before | copied
      · exact serving.staffed before
      · have original := clone_set (List.mem_singleton.mp copied).symm
        exact serving.staffed (List.mem_of_getElem? (original ▸ found))
  | startInit handle =>
      simp only [systemStep] at stepped
      split at stepped <;> cases stepped
      exact ⟨serving.standing, fun set => serving.staffed (set_other (by simp) set)⟩
  | cancelInit handle =>
      simp only [systemStep] at stepped
      split at stepped <;> cases stepped
      exact ⟨serving.standing, fun set => serving.staffed (set_other (by simp) set)⟩
  | finishInit handle =>
      simp only [systemStep] at stepped
      split at stepped <;> cases stepped
      exact hire_serving serving
  | submit handle query =>
      simp only [systemStep] at stepped
      split at stepped
      · rename_i used
        exact dispatch_to_serving stepped (fun _ _ => List.mem_of_getElem? used) serving
      · cases stepped
  | worker index label =>
      exact dispatch_to_serving stepped (fun _ submitted => by cases submitted) serving
  | around environment =>
      cases environment
      case enqueue => cases stepped
      all_goals exact dispatch_to_serving stepped (fun _ submitted => by cases submitted) serving

theorem new_system_serving (client : BlastDNSClient) :
    Serving (max client.config.maxInflightPerResolver 1) (newSystem client) where
  standing := {
    accounted := accounted_pool client.resolvers client.config client.queueCapacity 0
    stopped := by simp [newSystem, newDispatch]
    staffed := fun _ => rfl }
  staffed := by simp [newSystem]

theorem reached_serving {client : BlastDNSClient} {system : System client.resolvers.length}
    (reached : Relation.ReflTransGen (SystemSteps fromAscii client.config) (newSystem client)
      system) :
    Serving (max client.config.maxInflightPerResolver 1) system :=
  reachable_invariant (Serving (max client.config.maxInflightPerResolver 1))
    (fun _ _ serving stepped => system_step_serving stepped serving) reached
    (new_system_serving client)

end Standing

section Fair

/-- A run in which nothing more is submitted, time passes, and a crew that can move for
ever does move. Who of it moves, and what the network answers, is left open. -/
structure FairRun (fromAscii : String → Except ProtoError Name) (inputs : ℕ → Event n)
    (states : ℕ → Dispatch n) : Prop where
  run : Run (dispatchStep fromAscii) inputs states
  submitted : ∀ time query, inputs time ≠ .around (.enqueue query)
  passes : ∀ boundNs, ∃ time, boundNs ≤ (states time).shared.nowNs
  moves : ∀ start, (∀ time, start ≤ time → Enabled fromAscii (states time)) →
    ∃ time, start ≤ time ∧ ∃ index label, inputs time = .worker index label

variable {inputs : ℕ → Event n} {states : ℕ → Dispatch n} {permits : ℕ}
variable (fair : FairRun fromAscii inputs states)

include fair

theorem fair_standing (start : Standing permits (states 0)) (time : ℕ) :
    Standing permits (states time) := by
  induction time with
  | zero => exact start
  | succ time ih =>
      refine dispatch_standing (fair.run time) ?_ ih
      exact fun query submitted => absurd submitted (fair.submitted time query)

theorem fair_opened (time : ℕ) :
    (states time).shared.opened = (states 0).shared.opened ∧
    (states time).shared.nowNs ≤ (states (time + 1)).shared.nowNs := by
  have stepwise : ∀ time, (states (time + 1)).shared.opened = (states time).shared.opened ∧
      (states time).shared.nowNs ≤ (states (time + 1)).shared.nowNs := by
    intro time
    have stepped := fair.run time
    have submitted := fair.submitted time
    cases event : inputs time with
    | worker index label =>
        rw [event] at stepped
        rcases act_some stepped with ⟨_, _, _, _, moved, same⟩
        have framed := (worker_step_handles moved).2
        rw [same]
        exact ⟨framed.opened, framed.nowNs.ge⟩
    | around environment =>
        rw [event] at stepped submitted
        rcases Option.map_eq_some_iff.mp stepped with ⟨shared, moved, same⟩
        rw [← same]
        cases environment_step_surrounds moved with
        | enqueues => exact absurd rfl (submitted _)
        | leaves _ _ _ opened _ later => exact ⟨opened, later⟩
  refine ⟨?_, (stepwise time).2⟩
  induction time with
  | zero => rfl
  | succ time ih => exact (stepwise time).1.trans ih

theorem fair_clock {first last : ℕ} (order : first ≤ last) :
    (states first).shared.nowNs ≤ (states last).shared.nowNs :=
  monotone_nat_of_le_succ (fun time => (fair_opened fair time).2) order

/-- Between moves of the workers the work stays as it is. -/
theorem fair_still {quiet : ℕ}
    (still : ∀ time, quiet ≤ time → ¬ ∃ index label, inputs time = .worker index label)
    {time : ℕ} (later : quiet ≤ time) :
    (states time).procs = (states quiet).procs ∧
      (states time).shared.queue = (states quiet).shared.queue := by
  induction time, later using Nat.le_induction with
  | base => exact ⟨rfl, rfl⟩
  | succ time later ih =>
      have stepped := fair.run time
      have submitted := fair.submitted time
      cases event : inputs time with
      | worker index label => exact absurd ⟨index, label, event⟩ (still time later)
      | around environment =>
          rw [event] at stepped submitted
          rcases Option.map_eq_some_iff.mp stepped with ⟨shared, moved, same⟩
          rw [← same]
          cases environment_step_surrounds moved with
          | enqueues => exact absurd rfl (submitted _)
          | leaves _ queue => exact ⟨ih.1, queue.trans ih.2⟩

/-- The workers move only so often. -/
theorem fair_quiets (small : n ≤ 2 ^ 64) :
    ∃ quiet, ∀ time, quiet ≤ time → ¬ ∃ index label, inputs time = .worker index label := by
  apply events_end (fun time => rank (states time))
  · intro time
    have stepped := fair.run time
    have submitted := fair.submitted time
    cases event : inputs time with
    | worker index label =>
        rw [event] at stepped
        exact (worker_act_lowers small stepped).le
    | around environment =>
        rw [event] at stepped submitted
        rcases Option.map_eq_some_iff.mp stepped with ⟨shared, moved, same⟩
        rw [← same]
        apply environment_step_eases moved
        rintro query rfl
        exact submitted query rfl
  · rintro time ⟨index, label, event⟩
    have stepped := fair.run time
    rw [event] at stepped
    exact worker_act_lowers small stepped

omit fair in
/-- A time by which every sleeper is due. -/
theorem sleepers_bounded (procs : List (Phase n)) :
    ∃ boundNs, ∀ item untilNs, Phase.working item (.sleeping untilNs) ∈ procs →
      untilNs ≤ boundNs := by
  induction procs with
  | nil => exact ⟨0, by simp⟩
  | cons phase rest ih =>
      rcases ih with ⟨boundNs, bounded⟩
      by_cases sleeps : ∃ item untilNs, phase = .working item (.sleeping untilNs)
      · rcases sleeps with ⟨sleeper, dueNs, rfl⟩
        refine ⟨max boundNs dueNs, ?_⟩
        intro item untilNs member
        rcases List.mem_cons.mp member with here | there
        · cases here
          exact le_max_right _ _
        · exact (bounded item untilNs there).trans (le_max_left _ _)
      · refine ⟨boundNs, ?_⟩
        intro item untilNs member
        rcases List.mem_cons.mp member with here | there
        · exact absurd ⟨item, untilNs, here.symm⟩ sleeps
        · exact bounded item untilNs there

theorem fair_drains (small : n ≤ 2 ^ 64) (some : 0 < permits)
    (start : Standing permits (states 0)) :
    ∃ settled, ∀ time, settled ≤ time → Drained (states time) := by
  rcases fair_quiets fair small with ⟨quiet, still⟩
  refine ⟨quiet, ?_⟩
  have halted : Drained (states quiet) := by
    by_contra left
    rcases sleepers_bounded (states quiet).procs with ⟨boundNs, bounded⟩
    rcases fair.passes boundNs with ⟨due, passed⟩
    -- from here on everyone is awake, and still somebody has work
    have able : ∀ time, max quiet due ≤ time → Enabled fromAscii (states time) := by
      intro time later
      rcases max_le_iff.mp later with ⟨afterQuiet, afterDue⟩
      rcases fair_still fair still afterQuiet with ⟨procs, queue⟩
      apply work_left_enabled (fair_standing fair start time) some
      · intro item untilNs member
        exact (bounded item untilNs (procs ▸ member)).trans
          (passed.trans (fair_clock fair afterDue))
      · intro drained
        exact left ⟨queue ▸ drained.1, procs ▸ drained.2⟩
    rcases fair.moves _ able with ⟨time, later, moved⟩
    exact still time (le_of_max_le_left later) moved
  intro time later
  rcases fair_still fair still later with ⟨procs, queue⟩
  exact ⟨queue.trans halted.1, procs ▸ halted.2⟩

theorem fair_closed (closed : (states 0).shared.closed = true) (time : ℕ) :
    (states time).shared.closed = true := by
  induction time with
  | zero => exact closed
  | succ time ih =>
      have stepped := fair.run time
      cases event : inputs time with
      | worker index label =>
          rw [event] at stepped
          rcases act_some stepped with ⟨_, _, _, _, moved, same⟩
          rw [same]
          exact (worker_step_handles moved).2.closed.trans ih
      | around environment =>
          rw [event] at stepped
          rcases Option.map_eq_some_iff.mp stepped with ⟨shared, moved, same⟩
          rw [← same]
          cases environment_step_surrounds moved with
          | enqueues accepting => exact absurd (ih.symm.trans accepting) (by decide)
          | leaves _ _ _ _ shut => exact shut ih

/-- On a closed queue the workers do not rest before they have stopped. -/
theorem fair_stops (small : n ≤ 2 ^ 64) (some : 0 < permits)
    (start : Standing permits (states 0)) (closed : (states 0).shared.closed = true) :
    ∃ settled, ∀ time, settled ≤ time → (states time).shared.queue = [] ∧
      ∀ phase ∈ (states time).procs, phase = .stopped := by
  rcases fair_quiets fair small with ⟨quiet, still⟩
  rcases fair_drains fair small some start with ⟨settled, drains⟩
  refine ⟨max quiet settled, ?_⟩
  intro time later
  rcases max_le_iff.mp later with ⟨afterQuiet, afterSettled⟩
  refine ⟨(drains time afterSettled).1, ?_⟩
  intro phase member
  rcases (drains time afterSettled).2 phase member with rfl | stopped
  · -- an idle worker could stop at any later time, and nobody moves any more
    have able : ∀ point, time ≤ point → Enabled fromAscii (states point) := by
      intro point beyond
      have procs := (fair_still fair still (afterQuiet.trans beyond)).1.trans
        (fair_still fair still afterQuiet).1.symm
      apply enabled_of_step .proceed (procs ▸ member)
      simp [workerStep, (drains point (afterSettled.trans beyond)).1, fair_closed fair closed point]
    rcases fair.moves time able with ⟨point, beyond, moved⟩
    exact absurd moved (still point (afterQuiet.trans beyond))
  · exact stopped

end Fair

theorem drained_answered {dispatch : Dispatch n} {permits : ℕ} (standing : Standing permits dispatch)
    (drained : Drained dispatch) {responder : ℕ} (opened : responder < dispatch.shared.opened) :
    responses dispatch responder = 1 := by
  apply (accounted_items standing.accounted responder).2.mp
  refine ⟨opened, by simp [drained.1], ?_⟩
  intro phase member
  rcases drained.2 phase member with rfl | rfl <;> rfl

/-- Whatever a client and its clones have done and however its workers are scheduled
from then on, once no more is submitted every channel ever opened gets its one response
and the workers come to rest. -/
theorem submitted_work_is_answered (fromAscii : String → Except ProtoError Name)
    {client : BlastDNSClient} (small : client.resolvers.length ≤ 2 ^ 64)
    {system : System client.resolvers.length}
    (reached : Relation.ReflTransGen (SystemSteps fromAscii client.config) (newSystem client)
      system)
    {inputs : ℕ → Event client.resolvers.length} {states : ℕ → Dispatch client.resolvers.length}
    (start : states 0 = system.dispatch) (fair : FairRun fromAscii inputs states) :
    ∃ settled, ∀ time, settled ≤ time →
      (states time).shared.queue = [] ∧
      (∀ phase ∈ (states time).procs, phase = .idle ∨ phase = .stopped) ∧
      (∀ responder, responder < system.dispatch.shared.opened →
        responses (states time) responder = 1) ∧
      ∀ i, ((states time).shared.pool i).attempted = ((states time).shared.pool i).recorded := by
  have standing := (reached_serving reached).standing
  rw [← start] at standing ⊢
  rcases fair_drains fair small (by omega) standing with ⟨settled, drains⟩
  refine ⟨settled, ?_⟩
  intro time later
  have drained := drains time later
  have kept := fair_standing fair standing time
  refine ⟨drained.1, drained.2, ?_, ?_⟩
  · intro responder opened
    apply drained_answered kept drained
    rwa [(fair_opened fair time).1]
  · intro i
    have landed : inFlight (states time) i = 0 := by
      apply List.countP_eq_zero.mpr
      intro phase member
      rcases drained.2 phase member with rfl | rfl <;> simp [isInFlight]
    rw [accounted_outcomes kept.accounted i, landed, Nat.add_zero]

section Rests

def resting (dispatch : Dispatch n) : Bool :=
  dispatch.shared.queue.isEmpty && !dispatch.shared.closed &&
    dispatch.procs.all fun
      | .idle => true
      | _ => false

variable {last : Dispatch n}

theorem resting_not_enabled (rests : resting last = true) : ¬ Enabled fromAscii last := by
  simp only [resting, Bool.and_eq_true, List.isEmpty_iff, Bool.not_eq_true', List.all_eq_true]
    at rests
  rcases rests with ⟨⟨empty, accepting⟩, idle⟩
  rintro ⟨index, label, after, acted⟩
  rcases act_some acted with ⟨phase, shared, moved, found, stepped, _⟩
  have here := idle phase (List.mem_of_getElem? found)
  cases phase with
  | idle => cases label <;> simp [workerStep, empty, accepting] at stepped
  | stopped => cases here
  | working item stage => cases here
  | releasing i => cases here

def elapsed (dispatch : Dispatch n) (nanos : ℕ) : Dispatch n :=
  { dispatch with shared := { dispatch.shared with nowNs := dispatch.shared.nowNs + nanos } }

/-- Any script of the workers that leaves them at rest is the start of a fair run. -/
theorem fair_after_script {first : Dispatch n} {script : List (Event n)}
    (submitted : ∀ query, Event.around (.enqueue query) ∉ script)
    (played : replay fromAscii script first = some last) (rests : resting last = true) :
    ∃ inputs states, states 0 = first ∧ FairRun fromAscii inputs states := by
  have waits : Run (dispatchStep fromAscii) (fun _ => .around (.elapse 1)) (elapsed last) :=
    fun _ => rfl
  rcases run_after_replay (elapsed last) played waits with
    ⟨inputs, states, start, run, drawn, ends⟩
  refine ⟨inputs, states, start, run, ?_, ?_, ?_⟩
  · intro time query enqueued
    rcases drawn time with inside | ⟨_, waiting⟩
    · exact submitted query (enqueued ▸ inside)
    · rw [enqueued] at waiting
      cases waiting
  · intro boundNs
    refine ⟨script.length + boundNs, ?_⟩
    rw [ends boundNs]
    exact Nat.le_add_left boundNs last.shared.nowNs
  · intro since able
    have stuck : ¬ Enabled fromAscii (states (script.length + since)) := by
      rw [ends since]
      exact resting_not_enabled rests
    exact absurd (able _ (Nat.le_add_left since script.length)) stuck

end Rests

/-- One query, answered. -/
theorem submitted_work_is_answered_once :
    ∃ (inputs : ℕ → Event 1) (states : ℕ → Dispatch 1),
      (states 0).shared.queue = [⟨⟨"a.example", 1⟩, 0⟩] ∧ FairRun anyName inputs states ∧
      ∃ settled, responses (states settled) 0 = 1 := by
  let started : List (Action 1) := [.startInit 0, .finishInit 0, .submit 0 ⟨"a.example", 1⟩]
  let script : List (Event 1) :=
    List.replicate 10 (.worker 0 .proceed) ++
      .worker 0 (.answer (.error .noResolvers)) :: List.replicate 3 (.worker 0 .proceed)
  have ready : (started.foldlM (systemStep anyName narrowConfig) (newSystem narrowClient)).map
      (fun system => (system.dispatch.shared.queue, system.dispatch.shared.opened,
        (replay anyName script system.dispatch).map resting)) =
      some ([⟨⟨"a.example", 1⟩, 0⟩], 1, some true) := by
    decide
  rcases Option.map_eq_some_iff.mp ready with ⟨system, replayed, seen⟩
  simp only [Prod.mk.injEq] at seen
  rcases seen with ⟨queued, opened, answered⟩
  rcases Option.map_eq_some_iff.mp answered with ⟨last, played, rests⟩
  rcases fair_after_script (by simp [script]) played rests with ⟨inputs, states, start, fair⟩
  rcases submitted_work_is_answered anyName (by decide) (replay_reaches replayed) start fair with
    ⟨settled, drains⟩
  refine ⟨inputs, states, start ▸ queued, fair, settled, ?_⟩
  exact (drains settled le_rfl).2.2.1 0 (by omega)

end BlastDns.Drain
