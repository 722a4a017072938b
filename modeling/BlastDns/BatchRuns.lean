import BlastDns.Batch
import BlastDns.CallTraces
import BlastDns.CallsReturn
import BlastDns.Unordered

/-!
`resolve_batch_full` over the client itself. What the pipeline has in progress here are
calls of the client, over its cache, queue and workers, with whatever else is called
on it at the same time: other batches are so many other calls. A lookup is yielded
once its call has returned. One whose call panicked is gone, and the stream can be
polled further. Dropping the stream drops the calls in progress, each at the await
where it stands; a pull of the iterator that is under way runs on.
-/

namespace BlastDns.BatchRuns

open Batch Cache Calls Client Config Controller Crew Drain GlobalCap Handling Lru NetText Politeness
open Resolve RetryLoop Runs Worker

/-- The arguments of `resolve_batch_full`, and the handle it is called on. -/
structure Order (Fault : Type) where
  handle : ℕ
  hosts : HostSource Fault
  recordType : ℕ
  skipEmpty : Bool
  skipErrors : Bool

variable {Fault : Type}

namespace Order

variable (order : Order Fault)

def keeps (result : Answer) : Bool :=
  !(order.skipEmpty && isEmptyResponse result) && !(order.skipErrors && isError result)

def filtered (host : String) (result : Answer) : List (String × Answer) :=
  if order.keeps result then [(host, result)] else []

/-- The call made for a host. -/
def caller (host : String) : Caller :=
  { handle := order.handle, host := host, recordType := order.recordType }

end Order

def getConcurrency (client : BlastDNSClient) : ℕ := max client.queueCapacity 1

section Steps

variable {Name : Type} [DecidableEq Name] {lru : LruCache (Name × ℕ) CacheEntry} {n : ℕ}

/-- A stream of `resolve_batch_full` over the calls of a client, which it knows by their
places at the desk. -/
structure Haul (Fault : Type) (n : ℕ) (lru : LruCache (Name × ℕ) CacheEntry) where
  desk : Desk n lru
  pulls : ℕ := 0
  pending : Pending Fault := .idle
  -- the host stream has ended and is not polled again
  exhausted : Bool := false
  live : Bool := true
  started : List ℕ := []
  inProgress : List ℕ := []
  finished : List ℕ := []
  -- panicked
  lost : List ℕ := []
  cancelled : List ℕ := []
  yielded : List (String × Answer) := []

inductive HaulEvent (n : ℕ) where
  -- anything else that happens to the client
  | desk (event : DeskEvent n)
  | spawn
  | pull
  | poll
  | complete (position : ℕ)
  | drop

/-- Only the stream drops the calls it has in progress. -/
def cancels (calls : List ℕ) : DeskEvent n → Bool
  | .call index .cancel => decide (index ∈ calls)
  | _ => false

variable {Wire : Type} (fromAscii : String → Except ProtoError Wire) (client : BlastDNSClient)
variable (parse : String → Option Name) (latest : ℕ)

def cancelAll (calls : List ℕ) (desk : Desk n lru) : Option (Desk n lru) :=
  calls.foldlM (fun desk index => deskStep fromAscii client.config parse latest desk
    (.call index .cancel)) desk

variable (order : Order Fault)

def pollStep (haul : Haul Fault n lru) : Option (Haul Fault n lru) :=
  match haul.pending with
  | .ready (some (.ok host)) =>
      (deskStep fromAscii client.config parse latest haul.desk
        (.arrive order.handle host order.recordType)).map fun desk => { haul with
          desk := desk
          pending := .idle
          started := haul.started ++ [haul.desk.procs.length]
          inProgress := haul.inProgress ++ [haul.desk.procs.length] }
  | .ready (some (.error _)) => some { haul with pending := .idle }
  | .ready none => some { haul with pending := .idle, exhausted := true }
  | .idle | .spawned => none

def completeStep (haul : Haul Fault n lru) (position : ℕ) : Option (Haul Fault n lru) := do
  let index ← haul.inProgress[position]?
  let caller ← haul.desk.procs[index]?
  match caller.progress with
  | .returned result => some { haul with
      inProgress := haul.inProgress.eraseIdx position
      finished := haul.finished ++ [index]
      yielded := haul.yielded ++ order.filtered caller.host result }
  | .panicked => some { haul with
      inProgress := haul.inProgress.eraseIdx position
      lost := haul.lost ++ [index] }
  | _ => none

def haulStep (haul : Haul Fault n lru) : HaulEvent n → Option (Haul Fault n lru)
  | .desk event =>
      if cancels haul.inProgress event then none
      else (deskStep fromAscii client.config parse latest haul.desk event).map fun desk =>
        { haul with desk := desk }
  | .spawn =>
      match haul.pending with
      | .idle =>
          if !haul.live || haul.exhausted || getConcurrency client * 2 ≤ haul.inProgress.length then
            none
          else some { haul with pending := .spawned }
      | .spawned | .ready _ => none
  | .pull =>
      match haul.pending with
      | .spawned =>
          some { haul with pulls := haul.pulls + 1, pending := .ready (order.hosts haul.pulls) }
      | .idle | .ready _ => none
  | .poll => if haul.live then pollStep fromAscii client parse latest order haul else none
  | .complete position => if haul.live then completeStep order haul position else none
  | .drop =>
      if haul.live then
        (cancelAll fromAscii client parse latest haul.inProgress haul.desk).map fun desk =>
          { haul with desk := desk, live := false, inProgress := [], cancelled := haul.inProgress }
      else none

def HaulSteps (before after : Haul Fault n lru) : Prop :=
  ∃ event, haulStep fromAscii client parse latest order before event = some after

def newHaul (Fault : Type) (lru : LruCache (Name × ℕ) CacheEntry) (client : BlastDNSClient) :
    Haul Fault client.resolvers.length lru :=
  { desk := newDesk lru client }

end Steps

section Inversion

variable {Name : Type} [DecidableEq Name] {lru : LruCache (Name × ℕ) CacheEntry} {n : ℕ}
variable {Wire : Type} (fromAscii : String → Except ProtoError Wire) (client : BlastDNSClient)
variable (parse : String → Option Name) (latest : ℕ) (order : Order Fault)

/-- What an event can do to the batch. -/
inductive Hauled (haul : Haul Fault n lru) : HaulEvent n → Haul Fault n lru → Prop
  | beside {event : DeskEvent n} {desk : Desk n lru}
      (stepped : deskStep fromAscii client.config parse latest haul.desk event = some desk)
      (spares : ∀ index ∈ haul.inProgress, event ≠ .call index .cancel) :
      Hauled haul (.desk event) { haul with desk := desk }
  | spawns (idle : haul.pending = .idle) (live : haul.live = true) (more : haul.exhausted = false)
      (room : haul.inProgress.length < getConcurrency client * 2) :
      Hauled haul .spawn { haul with pending := .spawned }
  | pulls (spawned : haul.pending = .spawned) :
      Hauled haul .pull
        { haul with pulls := haul.pulls + 1, pending := .ready (order.hosts haul.pulls) }
  | starts {host : String} {desk : Desk n lru} (live : haul.live = true)
      (ready : haul.pending = .ready (some (.ok host)))
      (arrived : deskStep fromAscii client.config parse latest haul.desk
        (.arrive order.handle host order.recordType) = some desk) :
      Hauled haul .poll { haul with
        desk := desk
        pending := .idle
        started := haul.started ++ [haul.desk.procs.length]
        inProgress := haul.inProgress ++ [haul.desk.procs.length] }
  | skips {fault : Fault} (live : haul.live = true)
      (ready : haul.pending = .ready (some (.error fault))) :
      Hauled haul .poll { haul with pending := .idle }
  | exhausts (live : haul.live = true) (ready : haul.pending = .ready none) :
      Hauled haul .poll { haul with pending := .idle, exhausted := true }
  | yields {position index : ℕ} {caller : Caller} {result : Answer} (live : haul.live = true)
      (found : haul.inProgress[position]? = some index)
      (held : haul.desk.procs[index]? = some caller) (place : caller.progress = .returned result) :
      Hauled haul (.complete position) { haul with
        inProgress := haul.inProgress.eraseIdx position
        finished := haul.finished ++ [index]
        yielded := haul.yielded ++ order.filtered caller.host result }
  | loses {position index : ℕ} {caller : Caller} (live : haul.live = true)
      (found : haul.inProgress[position]? = some index)
      (held : haul.desk.procs[index]? = some caller) (place : caller.progress = .panicked) :
      Hauled haul (.complete position) { haul with
        inProgress := haul.inProgress.eraseIdx position
        lost := haul.lost ++ [index] }
  | drops {desk : Desk n lru} (live : haul.live = true)
      (dropped : cancelAll fromAscii client parse latest haul.inProgress haul.desk = some desk) :
      Hauled haul .drop { haul with
        desk := desk, live := false, inProgress := [], cancelled := haul.inProgress }

variable {fromAscii client parse latest order} {haul after : Haul Fault n lru}

theorem not_cancels {calls : List ℕ} {event : DeskEvent n} (spares : cancels calls event = false) :
    ∀ index ∈ calls, event ≠ .call index .cancel := by
  rintro index member rfl
  simp [cancels, member] at spares

theorem haul_step_hauled {event : HaulEvent n}
    (stepped : haulStep fromAscii client parse latest order haul event = some after) :
    Hauled fromAscii client parse latest order haul event after := by
  cases event with
  | desk event =>
      simp only [haulStep] at stepped
      split at stepped
      · cases stepped
      rename_i spares
      rcases Option.map_eq_some_iff.mp stepped with ⟨desk, moved, rfl⟩
      exact .beside moved (not_cancels (Bool.eq_false_iff.mpr spares))
  | spawn =>
      simp only [haulStep] at stepped
      split at stepped
      · rename_i idle
        split at stepped <;> cases stepped
        rename_i room
        simp only [Bool.or_eq_true, Bool.not_eq_true', decide_eq_true_eq, not_or, not_le,
          Bool.not_eq_false, Bool.not_eq_true] at room
        exact .spawns idle room.1.1 room.1.2 room.2
      · cases stepped
      · cases stepped
  | pull =>
      simp only [haulStep] at stepped
      split at stepped
      · rename_i spawned
        cases stepped
        exact .pulls spawned
      · cases stepped
      · cases stepped
  | poll =>
      simp only [haulStep, pollStep] at stepped
      split at stepped
      swap
      · cases stepped
      rename_i live
      split at stepped
      · rename_i host ready
        rcases Option.map_eq_some_iff.mp stepped with ⟨desk, arrived, rfl⟩
        exact .starts live ready arrived
      · rename_i fault ready
        cases stepped
        exact .skips live ready
      · rename_i ready
        cases stepped
        exact .exhausts live ready
      · cases stepped
      · cases stepped
  | complete position =>
      simp only [haulStep] at stepped
      split at stepped
      swap
      · cases stepped
      rename_i live
      rcases Option.bind_eq_some_iff.mp stepped with ⟨index, found, rest⟩
      rcases Option.bind_eq_some_iff.mp rest with ⟨caller, held, ends⟩
      split at ends
      · rename_i result place
        cases ends
        exact .yields live found held place
      · rename_i place
        cases ends
        exact .loses live found held place
      · cases ends
  | drop =>
      simp only [haulStep] at stepped
      split at stepped
      · rename_i live
        rcases Option.map_eq_some_iff.mp stepped with ⟨desk, dropped, rfl⟩
        exact .drops live dropped
      · cases stepped

end Inversion

section Onward

variable {Name : Type} [DecidableEq Name] {lru : LruCache (Name × ℕ) CacheEntry} {n : ℕ}
variable {Wire : Type} {fromAscii : String → Except ProtoError Wire} {config : BlastDNSConfig}
variable {parse : String → Option Name} {latest : ℕ}
variable {floor after : Floor n lru} {caller moved : Caller}

/-- A call goes on as the call it was, and once it has ended not at all. -/
structure Continues (caller moved : Caller) : Prop where
  handle : moved.handle = caller.handle
  host : moved.host = caller.host
  recordType : moved.recordType = caller.recordType
  ended : ended caller = true → moved = caller

def Onward (desk later : Desk n lru) : Prop :=
  ∀ (index : ℕ) (caller : Caller), desk.procs[index]? = some caller →
    ∃ moved, later.procs[index]? = some moved ∧ Continues caller moved

theorem continues_refl (caller : Caller) : Continues caller caller := ⟨rfl, rfl, rfl, fun _ => rfl⟩

theorem Onward.trans {first second third : Desk n lru} (one : Onward first second)
    (two : Onward second third) : Onward first third := by
  intro index caller held
  rcases one index caller held with ⟨moved, there, continues⟩
  rcases two index moved there with ⟨last, found, goes⟩
  refine ⟨last, found, goes.handle.trans continues.handle, goes.host.trans continues.host,
    goes.recordType.trans continues.recordType, ?_⟩
  intro past
  have same := continues.ended past
  rw [same] at goes
  exact goes.ended past

theorem moves_continues (moves : Moves fromAscii config parse latest floor caller after moved) :
    Continues caller moved := by
  have running : ended caller = false := by
    cases moves
    case cancels place =>
      rcases place with place | ⟨_, place⟩ | ⟨_, _, place⟩ <;> simp [ended, place]
    all_goals simp_all [ended]
  have same : moved.handle = caller.handle ∧ moved.host = caller.host ∧
      moved.recordType = caller.recordType := by
    cases moves <;> exact ⟨rfl, rfl, rfl⟩
  refine ⟨same.1, same.2.1, same.2.2, ?_⟩
  rw [running]
  rintro ⟨⟩

theorem proceed_not_cancelled
    (stepped : callStep fromAscii config parse latest floor caller .proceed = some (after, moved)) :
    moved.progress ≠ .cancelled := by
  cases call_step_moves stepped with
  | @judged attempt result place =>
      rcases judge_cases config attempt result with again | ⟨_, _, stores⟩ | ⟨_, _, _, concedes⟩ |
        ⟨_, _, _, returns⟩
      · simp [Caller.goes, again]
      · simp [Caller.goes, stores]
      · simp [Caller.goes, concedes]
      · simp [Caller.goes, returns]
  | cancels place =>
      -- the same places, but this is not the step taken there
      rcases place with place | ⟨attempt, place⟩ | ⟨attempt, channel, place⟩ <;>
        simp only [callStep, proceedStep, place, offerStep] at stepped
      · split at stepped <;> simp [Caller.goes] at stepped
      · split at stepped
        · split at stepped
          · simp [Caller.goes, Caller.hears] at stepped
          · rcases Option.map_eq_some_iff.mp stepped with ⟨_, _, same⟩
            simp [Caller.goes] at same
        · simp [Caller.goes] at stepped
      · rcases Option.map_eq_some_iff.mp stepped with ⟨_, _, same⟩
        simp [Caller.goes, Caller.hears] at same
  | _ => simp [Caller.goes, Caller.hears]

variable {desk later : Desk n lru} {event : DeskEvent n}

theorem desk_step_onward
    (stepped : deskStep fromAscii config parse latest desk event = some later) :
    Onward desk later := by
  intro index caller held
  rcases desk_step_cases ⟨event, stepped⟩ with ⟨_, _, _, _, rfl⟩ | ⟨place, label, acted⟩ |
    ⟨_, _, _, _, rfl⟩
  · rcases List.getElem?_eq_some_iff.mp held with ⟨inside, _⟩
    exact ⟨caller, (List.getElem?_append_left inside).trans held, continues_refl caller⟩
  · rcases act_some acted with ⟨mover, floor, moved, found, moves, rfl⟩
    by_cases here : place = index
    · subst here
      cases found.symm.trans held
      rcases List.getElem?_eq_some_iff.mp found with ⟨inside, _⟩
      exact ⟨moved, List.getElem?_set_self inside, moves_continues (call_step_moves moves)⟩
    · exact ⟨caller, (List.getElem?_set_ne here).trans held, continues_refl caller⟩
  · exact ⟨caller, held, continues_refl caller⟩

/-- Only its own cancellation drops a call. -/
theorem desk_step_spares {index : ℕ}
    (stepped : deskStep fromAscii config parse latest desk event = some later)
    (spared : event ≠ .call index .cancel) (held : desk.procs[index]? = some caller)
    (kept : caller.progress ≠ .cancelled) (there : later.procs[index]? = some moved) :
    moved.progress ≠ .cancelled := by
  cases event with
  | arrive handle host recordType =>
      simp only [deskStep] at stepped
      split at stepped <;> cases stepped
      rcases List.getElem?_eq_some_iff.mp held with ⟨inside, _⟩
      cases held.symm.trans ((List.getElem?_append_left inside).symm.trans there)
      exact kept
  | call place label =>
      rcases act_some stepped with ⟨mover, floor, next, found, moves, rfl⟩
      by_cases here : place = index
      · subst here
        cases found.symm.trans held
        rcases List.getElem?_eq_some_iff.mp found with ⟨inside, _⟩
        cases (List.getElem?_set_self inside).symm.trans there
        cases label with
        | proceed => exact proceed_not_cancelled moves
        | cancel => exact absurd rfl spared
      · cases held.symm.trans ((List.getElem?_set_ne here).symm.trans there)
        exact kept
  | system action =>
      rcases desk_step_system stepped with ⟨_, _, _, rfl⟩
      cases held.symm.trans there
      exact kept

theorem cancel_step {index : ℕ} (stepped : deskStep fromAscii config parse latest desk
      (.call index .cancel) = some later) :
    ∃ caller, later.procs[index]? = some caller ∧ caller.progress = .cancelled := by
  rcases act_some stepped with ⟨caller, floor, moved, found, moves, rfl⟩
  rcases List.getElem?_eq_some_iff.mp found with ⟨inside, _⟩
  refine ⟨moved, List.getElem?_set_self inside, ?_⟩
  simp only [callStep] at moves
  split at moves <;> cases moves <;> rfl

variable {client : BlastDNSClient}

/-- Dropping the stream drops every call it had, and does nothing else. -/
theorem cancel_all {calls : List ℕ}
    (dropped : cancelAll fromAscii client parse latest calls desk = some later) :
    Onward desk later ∧
      Relation.ReflTransGen (DeskSteps fromAscii client.config parse latest) desk later ∧
      ∀ index ∈ calls, ∃ caller, later.procs[index]? = some caller ∧
        caller.progress = .cancelled := by
  induction calls generalizing desk with
  | nil =>
      cases dropped
      exact ⟨fun index caller held => ⟨caller, held, continues_refl caller⟩, .refl, by simp⟩
  | cons first rest ih =>
      rw [cancelAll, List.foldlM_cons] at dropped
      rcases Option.bind_eq_some_iff.mp dropped with ⟨middle, stepped, tail⟩
      rcases ih tail with ⟨onward, reached, others⟩
      refine ⟨(desk_step_onward stepped).trans onward, .head ⟨_, stepped⟩ reached, ?_⟩
      intro index member
      rcases List.mem_cons.mp member with rfl | inside
      · rcases cancel_step stepped with ⟨caller, there, place⟩
        rcases onward _ caller there with ⟨moved, found, continues⟩
        exact ⟨caller, continues.ended (by simp [ended, place]) ▸ found, place⟩
      · exact others index inside

end Onward

section Invariant

variable {Name : Type} [DecidableEq Name] {lru : LruCache (Name × ℕ) CacheEntry} {n : ℕ}

/-- The call at this place is the one made for this host. -/
def MadeFor (order : Order Fault) (desk : Desk n lru) (index : ℕ) (host : String) : Prop :=
  ∃ caller, desk.procs[index]? = some caller ∧ caller.handle = order.handle ∧ caller.host = host ∧
    caller.recordType = order.recordType

/-- What the stream makes of a call. -/
def Order.outcome (order : Order Fault) (desk : Desk n lru) (index : ℕ) : List (String × Answer) :=
  match desk.procs[index]? with
  | some caller =>
      match caller.progress with
      | .returned result => order.filtered caller.host result
      | _ => []
  | none => []

/-- A host that was pulled and is not looked up yet. -/
def pendingHosts : Pending Fault → List String
  | .ready (some (.ok host)) => [host]
  | _ => []

def busy : Pending Fault → ℕ
  | .idle => 0
  | .spawned | .ready _ => 1

/-- A pull of the iterator is under way. -/
def pulling : Pending Fault → ℕ
  | .spawned => 1
  | .idle | .ready _ => 0

/-- What the stream has written down of its calls is so at the desk. -/
structure Written (order : Order Fault) (haul : Haul Fault n lru) : Prop where
  calls : ∃ hosts, List.Forall₂ (MadeFor order haul.desk) haul.started hosts ∧
    hosts ++ pendingHosts haul.pending = hostsBefore order.hosts haul.pulls
  finished : ∀ index ∈ haul.finished, ∃ caller result,
    haul.desk.procs[index]? = some caller ∧ caller.progress = .returned result
  lost : ∀ index ∈ haul.lost, ∃ caller,
    haul.desk.procs[index]? = some caller ∧ caller.progress = .panicked
  cancelled : ∀ index ∈ haul.cancelled, ∃ caller,
    haul.desk.procs[index]? = some caller ∧ caller.progress = .cancelled
  yielded : haul.yielded = haul.finished.flatMap (order.outcome haul.desk)

structure Hauls (client : BlastDNSClient) (order : Order Fault) (haul : Haul Fault n lru) :
    Prop where
  written : Written order haul
  rising : haul.started.Pairwise (· < ·)
  parts : (haul.inProgress ++ (haul.finished ++ (haul.lost ++ haul.cancelled))).Perm haul.started
  running : ∀ index ∈ haul.inProgress, ∀ caller, haul.desk.procs[index]? = some caller →
    caller.progress ≠ .cancelled
  room : haul.inProgress.length + busy haul.pending ≤ getConcurrency client * 2
  last : haul.pending = .ready none → ∃ pull, haul.pulls = pull + 1 ∧ order.hosts pull = none
  exhausted : haul.exhausted = true →
    haul.pending = .idle ∧ ∃ pull, haul.pulls = pull + 1 ∧ order.hosts pull = none
  dropped : haul.live = false → haul.inProgress = []
  undropped : haul.live = true → haul.cancelled = []

variable {client : BlastDNSClient} {order : Order Fault} {haul : Haul Fault n lru}
variable {desk later : Desk n lru}

theorem get_concurrency_pos (client : BlastDNSClient) : 0 < getConcurrency client := by
  rw [getConcurrency]
  omega

theorem started_made {calls : List ℕ} {hosts : List String}
    (made : List.Forall₂ (MadeFor order desk) calls hosts) {index : ℕ} (member : index ∈ calls) :
    ∃ host, MadeFor order desk index host := by
  rcases Unordered.paired_right made.flip member with ⟨host, _, mine⟩
  exact ⟨host, mine⟩

theorem started_inside {calls : List ℕ} {hosts : List String}
    (made : List.Forall₂ (MadeFor order desk) calls hosts) (index : ℕ) (member : index ∈ calls) :
    index < desk.procs.length := by
  rcases started_made made member with ⟨host, caller, held, _⟩
  exact (List.getElem?_eq_some_iff.mp held).1

section Desks

variable (onward : Onward desk later)

include onward

theorem onward_ended {index : ℕ} {caller : Caller} (held : desk.procs[index]? = some caller)
    (past : ended caller = true) : later.procs[index]? = some caller := by
  rcases onward index caller held with ⟨moved, there, continues⟩
  rw [there, continues.ended past]

theorem onward_made {index : ℕ} {host : String} (made : MadeFor order desk index host) :
    MadeFor order later index host := by
  rcases made with ⟨caller, held, handle, same, recordType⟩
  rcases onward index caller held with ⟨moved, there, continues⟩
  exact ⟨moved, there, continues.handle.trans handle, continues.host.trans same,
    continues.recordType.trans recordType⟩

end Desks

/-- Whatever goes on at the desk, ended calls stay as they are. -/
theorem written_onward (written : Written order haul) (onward : Onward haul.desk desk) :
    Written order { haul with desk := desk } := by
  rcases written with ⟨⟨hosts, made, same⟩, finished, lost, cancelled, yielded⟩
  refine ⟨⟨hosts, made.imp fun _ _ => onward_made onward, same⟩, ?_, ?_, ?_, ?_⟩
  · intro index member
    rcases finished index member with ⟨caller, result, held, place⟩
    exact ⟨caller, result, onward_ended onward held (by simp [ended, place]), place⟩
  · intro index member
    rcases lost index member with ⟨caller, held, place⟩
    exact ⟨caller, onward_ended onward held (by simp [ended, place]), place⟩
  · intro index member
    rcases cancelled index member with ⟨caller, held, place⟩
    exact ⟨caller, onward_ended onward held (by simp [ended, place]), place⟩
  · refine yielded.trans (List.flatMap_congr ?_)
    intro index member
    rcases finished index member with ⟨caller, result, held, place⟩
    rw [Order.outcome, Order.outcome, held,
      onward_ended onward held (by simp [ended, place])]

theorem taken_perm {Value : Type} {values rest all : List Value} {position : ℕ} {value : Value}
    (found : values[position]? = some value) (parts : (values ++ rest).Perm all) :
    (values.eraseIdx position ++ (value :: rest)).Perm all := by
  rcases List.getElem?_eq_some_iff.mp found with ⟨inside, rfl⟩
  have front := (List.getElem_cons_eraseIdx_perm inside).append_right rest
  exact List.perm_middle.trans (front.trans parts)

section Moves

variable {Wire : Type} {fromAscii : String → Except ProtoError Wire}
variable {parse : String → Option Name} {latest : ℕ} {after : Haul Fault n lru}

/-- A call is made for the host that was pulled. -/
theorem start_hauls (hauls : Hauls client order haul) {host : String}
    (ready : haul.pending = .ready (some (.ok host))) (live : haul.live = true)
    (arrived : deskStep fromAscii client.config parse latest haul.desk
      (.arrive order.handle host order.recordType) = some desk) :
    Hauls client order { haul with
      desk := desk
      pending := .idle
      started := haul.started ++ [haul.desk.procs.length]
      inProgress := haul.inProgress ++ [haul.desk.procs.length] } := by
  have onward := desk_step_onward arrived
  rcases written_onward hauls.written onward with ⟨⟨hosts, made, same⟩, finished, lost, cancelled,
    yielded⟩
  have fresh : desk.procs[haul.desk.procs.length]? = some (order.caller host) := by
    simp only [deskStep] at arrived
    split at arrived <;> cases arrived
    exact List.getElem?_concat_length
  rcases hauls.written.calls with ⟨_, earlier, _⟩
  refine ⟨⟨⟨hosts ++ [host], ?_, ?_⟩, finished, lost, cancelled, yielded⟩, ?_, ?_, ?_, ?_, ?_, ?_,
    ?_, ?_⟩
  · exact List.rel_append made (.cons ⟨_, fresh, rfl, rfl, rfl⟩ .nil)
  · simpa [ready, pendingHosts] using same
  · refine List.pairwise_append.mpr ⟨hauls.rising, List.pairwise_singleton _ _, ?_⟩
    intro index member other single
    rw [List.mem_singleton.mp single]
    exact started_inside earlier index member
  · rw [List.append_assoc]
    refine (List.Perm.append_left _ List.perm_append_comm).trans ?_
    rw [← List.append_assoc]
    exact hauls.parts.append_right _
  · intro index member caller held
    rcases List.mem_append.mp member with before | single
    · have inside := started_inside earlier index
        (hauls.parts.subset (List.mem_append_left _ before))
      exact desk_step_spares arrived (by simp) (List.getElem?_eq_getElem inside)
        (hauls.running index before _ (List.getElem?_eq_getElem inside)) held
    · rw [List.mem_singleton.mp single] at held
      cases held.symm.trans fresh
      simp [Order.caller]
  · have room := hauls.room
    simp only [ready, busy, List.length_append, List.length_singleton] at room ⊢
    omega
  · rintro ⟨⟩
  · intro spent
    have idle := (hauls.exhausted spent).1
    rw [ready] at idle
    cases idle
  · intro gone
    rw [live] at gone
    cases gone
  · exact hauls.undropped

theorem pull_hauls (hauls : Hauls client order haul) (spawned : haul.pending = .spawned) :
    Hauls client order
      { haul with pulls := haul.pulls + 1, pending := .ready (order.hosts haul.pulls) } := by
  rcases hauls.written with ⟨⟨hosts, made, same⟩, finished, lost, cancelled, yielded⟩
  have pulled : pendingHosts (.ready (order.hosts haul.pulls)) =
      ((order.hosts haul.pulls).bind Except.toOption).toList := by
    match order.hosts haul.pulls with
    | none => rfl
    | some (.ok host) => rfl
    | some (.error fault) => rfl
  have earlier : hosts = hostsBefore order.hosts haul.pulls := by
    simpa [spawned, pendingHosts] using same
  refine ⟨⟨⟨hosts, made, ?_⟩, finished, lost, cancelled, yielded⟩, hauls.rising, hauls.parts,
    hauls.running, ?_, ?_, ?_, hauls.dropped, hauls.undropped⟩
  · rw [hosts_before_succ, pulled, earlier]
  · have room := hauls.room
    rw [spawned] at room
    exact room
  · intro none
    cases item : order.hosts haul.pulls with
    | none => exact ⟨haul.pulls, rfl, item⟩
    | some host =>
        rw [item] at none
        cases none
  · intro spent
    have idle := (hauls.exhausted spent).1
    rw [spawned] at idle
    cases idle

/-- The host stream is polled for an item that is no host. -/
theorem quiet_poll_hauls (hauls : Hauls client order haul) {item : Option (Except Fault String)}
    (ready : haul.pending = .ready item) (none : pendingHosts haul.pending = []) {last : Bool}
    (ends : last = true → ∃ pull, haul.pulls = pull + 1 ∧ order.hosts pull = .none) :
    Hauls client order { haul with pending := .idle, exhausted := last } := by
  rcases hauls.written with ⟨⟨hosts, made, same⟩, finished, lost, cancelled, yielded⟩
  rw [none] at same
  refine ⟨⟨⟨hosts, made, same⟩, finished, lost, cancelled, yielded⟩, hauls.rising,
    hauls.parts, hauls.running, ?_, ?_, fun spent => ⟨rfl, ends spent⟩, hauls.dropped,
    hauls.undropped⟩
  · have room := hauls.room
    simp only [ready, busy] at room ⊢
    omega
  · rintro ⟨⟩

theorem yield_hauls (hauls : Hauls client order haul) (live : haul.live = true)
    {position index : ℕ} {caller : Caller} {result : Answer}
    (found : haul.inProgress[position]? = some index)
    (held : haul.desk.procs[index]? = some caller) (place : caller.progress = .returned result) :
    Hauls client order { haul with
      inProgress := haul.inProgress.eraseIdx position
      finished := haul.finished ++ [index]
      yielded := haul.yielded ++ order.filtered caller.host result } := by
  have written := hauls.written
  refine ⟨⟨written.calls, ?_, written.lost, written.cancelled, ?_⟩, hauls.rising, ?_, ?_, ?_,
    hauls.last, hauls.exhausted, ?_, hauls.undropped⟩
  · intro other member
    rcases List.mem_append.mp member with before | single
    · exact written.finished other before
    · rw [List.mem_singleton.mp single]
      exact ⟨caller, result, held, place⟩
  · have mine : order.outcome haul.desk index = order.filtered caller.host result := by
      simp only [Order.outcome, held, place]
    simp [written.yielded, mine]
  · rw [List.append_assoc, List.singleton_append]
    refine (List.Perm.append_left _ List.perm_middle).trans ?_
    exact taken_perm found hauls.parts
  · intro other member
    exact hauls.running other (List.mem_of_mem_eraseIdx member)
  · have room := hauls.room
    have fewer := List.length_eraseIdx_le haul.inProgress position
    dsimp only
    omega
  · intro gone
    rw [live] at gone
    cases gone

theorem lose_hauls (hauls : Hauls client order haul) (live : haul.live = true)
    {position index : ℕ} {caller : Caller} (found : haul.inProgress[position]? = some index)
    (held : haul.desk.procs[index]? = some caller) (place : caller.progress = .panicked) :
    Hauls client order { haul with
      inProgress := haul.inProgress.eraseIdx position
      lost := haul.lost ++ [index] } := by
  have written := hauls.written
  refine ⟨⟨written.calls, written.finished, ?_, written.cancelled, written.yielded⟩, hauls.rising,
    ?_, ?_, ?_, hauls.last, hauls.exhausted, ?_, hauls.undropped⟩
  · intro other member
    rcases List.mem_append.mp member with before | single
    · exact written.lost other before
    · rw [List.mem_singleton.mp single]
      exact ⟨caller, held, place⟩
  · rw [List.append_assoc, List.singleton_append, ← List.append_assoc haul.finished]
    refine (List.Perm.append_left _ List.perm_middle).trans ?_
    rw [List.append_assoc]
    exact taken_perm found hauls.parts
  · intro other member
    exact hauls.running other (List.mem_of_mem_eraseIdx member)
  · have room := hauls.room
    have fewer := List.length_eraseIdx_le haul.inProgress position
    dsimp only
    omega
  · intro gone
    rw [live] at gone
    cases gone

theorem drop_hauls (hauls : Hauls client order haul) (live : haul.live = true)
    (dropped : cancelAll fromAscii client parse latest haul.inProgress haul.desk = some desk) :
    Hauls client order { haul with
      desk := desk, live := false, inProgress := [], cancelled := haul.inProgress } := by
  rcases cancel_all dropped with ⟨onward, _, cancelled⟩
  have written := written_onward hauls.written onward
  refine ⟨⟨written.calls, written.finished, written.lost, cancelled, written.yielded⟩,
    hauls.rising, ?_, by simp, ?_, hauls.last, hauls.exhausted, fun _ => rfl, by simp⟩
  · have parts := hauls.parts
    rw [hauls.undropped live, List.append_nil] at parts
    rw [List.nil_append, ← List.append_assoc]
    exact List.perm_append_comm.trans parts
  · have some := get_concurrency_pos client
    have most : busy haul.pending ≤ 1 := by
      cases haul.pending <;> simp [busy]
    simp only [List.length_nil]
    omega

theorem hauled_hauls {event : HaulEvent n}
    (hauled : Hauled fromAscii client parse latest order haul event after)
    (hauls : Hauls client order haul) : Hauls client order after := by
  cases hauled with
  | beside stepped spares =>
      refine ⟨written_onward hauls.written (desk_step_onward stepped), hauls.rising, hauls.parts,
        ?_, hauls.room, hauls.last, hauls.exhausted, hauls.dropped, hauls.undropped⟩
      intro index member caller there
      rcases hauls.written.calls with ⟨_, made, _⟩
      have inside := started_inside made index (hauls.parts.subset (List.mem_append_left _ member))
      exact desk_step_spares stepped (spares index member) (List.getElem?_eq_getElem inside)
        (hauls.running index member _ (List.getElem?_eq_getElem inside)) there
  | spawns idle live more room =>
      rcases hauls.written with ⟨⟨hosts, made, same⟩, finished, lost, cancelled, yielded⟩
      refine ⟨⟨⟨hosts, made, ?_⟩, finished, lost, cancelled, yielded⟩, hauls.rising, hauls.parts,
        hauls.running, room, by simp, ?_, hauls.dropped, hauls.undropped⟩
      · simpa [idle, pendingHosts] using same
      · intro spent
        rw [more] at spent
        cases spent
  | pulls spawned => exact pull_hauls hauls spawned
  | starts live ready arrived => exact start_hauls hauls ready live arrived
  | skips live ready =>
      exact quiet_poll_hauls hauls ready (by rw [ready]; rfl) fun spent => (hauls.exhausted spent).2
  | exhausts live ready =>
      exact quiet_poll_hauls hauls ready (by rw [ready]; rfl) fun _ => hauls.last ready
  | yields live found held place => exact yield_hauls hauls live found held place
  | loses live found held place => exact lose_hauls hauls live found held place
  | drops live dropped => exact drop_hauls hauls live dropped

/-- A batch is so many calls: what it does to the client, calls can do. -/
theorem hauled_beneath {event : HaulEvent n}
    (hauled : Hauled fromAscii client parse latest order haul event after) :
    Relation.ReflTransGen (DeskSteps fromAscii client.config parse latest) haul.desk after.desk := by
  cases hauled with
  | beside stepped => exact .single ⟨_, stepped⟩
  | starts _ _ arrived => exact .single ⟨_, arrived⟩
  | drops _ dropped => exact (cancel_all dropped).2.1
  | _ => exact .refl

/-- A dropped stream starts nothing and yields nothing, and at most the pull that was under
way goes on. -/
theorem hauled_dropped {event : HaulEvent n}
    (hauled : Hauled fromAscii client parse latest order haul event after)
    (gone : haul.live = false) :
    after.live = false ∧ after.started = haul.started ∧ after.yielded = haul.yielded ∧
      after.pulls + pulling after.pending = haul.pulls + pulling haul.pending := by
  cases hauled with
  | beside => exact ⟨gone, rfl, rfl, rfl⟩
  | pulls spawned => exact ⟨gone, rfl, rfl, by simp [spawned, pulling]⟩
  | spawns _ live => simp [gone] at live
  | starts live => simp [gone] at live
  | skips live => simp [gone] at live
  | exhausts live => simp [gone] at live
  | yields live => simp [gone] at live
  | loses live => simp [gone] at live
  | drops live => simp [gone] at live

end Moves

section Reached

variable {Wire : Type} {fromAscii : String → Except ProtoError Wire}
variable {parse : String → Option Name} {latest : ℕ}
variable {reachedHaul : Haul Fault client.resolvers.length lru}

theorem new_haul_hauls : Hauls client order (newHaul Fault lru client) :=
  ⟨⟨⟨[], .nil, rfl⟩, by simp [newHaul], by simp [newHaul], by simp [newHaul], rfl⟩, .nil, .nil,
    by simp [newHaul], by simp [newHaul, busy], by simp [newHaul], by simp [newHaul],
    fun _ => rfl, fun _ => rfl⟩

theorem reached_hauls
    (reached : Relation.ReflTransGen (HaulSteps fromAscii client parse latest order)
      (newHaul Fault lru client) reachedHaul) : Hauls client order reachedHaul := by
  refine reachable_invariant (Hauls client order) ?_ reached new_haul_hauls
  rintro before after hauls ⟨event, stepped⟩
  exact hauled_hauls (haul_step_hauled stepped) hauls

theorem reached_desk
    (reached : Relation.ReflTransGen (HaulSteps fromAscii client parse latest order)
      (newHaul Fault lru client) reachedHaul) :
    Relation.ReflTransGen (DeskSteps fromAscii client.config parse latest) (newDesk lru client)
      reachedHaul.desk := by
  refine reachable_invariant (fun haul : Haul Fault client.resolvers.length lru =>
    Relation.ReflTransGen (DeskSteps fromAscii client.config parse latest) (newDesk lru client)
      haul.desk) ?_ reached .refl
  rintro before after beneath ⟨event, stepped⟩
  exact beneath.trans (hauled_beneath (haul_step_hauled stepped))

theorem late_dropped {early late : Haul Fault n lru}
    (later : Relation.ReflTransGen (HaulSteps fromAscii client parse latest order) early late)
    (gone : early.live = false) :
    late.started = early.started ∧ late.yielded = early.yielded ∧ late.pulls ≤ early.pulls + 1 := by
  have kept := reachable_invariant (fun haul : Haul Fault n lru => haul.live = false ∧
    haul.started = early.started ∧ haul.yielded = early.yielded ∧
    haul.pulls + pulling haul.pending = early.pulls + pulling early.pending) ?_ later
    ⟨gone, rfl, rfl, rfl⟩
  · rcases kept with ⟨_, started, yielded, pulls⟩
    have most : pulling early.pending ≤ 1 := by
      cases early.pending <;> simp [pulling]
    exact ⟨started, yielded, by omega⟩
  · rintro before after ⟨still, started, yielded, pulls⟩ ⟨event, stepped⟩
    rcases hauled_dropped (haul_step_hauled stepped) still with ⟨off, same, silent, pulled⟩
    exact ⟨off, same.trans started, silent.trans yielded, pulled.trans pulls⟩

end Reached

end Invariant

section Safety

variable {Name : Type} [DecidableEq Name] {lru : LruCache (Name × ℕ) CacheEntry} {n : ℕ}
variable {Wire : Type}

/-- Where a result comes from: a reply of the network to this query, or to one with the same
cache key; or the reason why no query was sent. -/
def Backed (fromAscii : String → Except ProtoError Wire) (parse : String → Option Name)
    (floor : Floor n lru) (query : QuerySpec) : Answer → Prop
  | .ok response => ∃ replied, (replied = query ∨ SameKey parse replied query) ∧
      Replied floor.exchanges replied (.ok response)
  | .error err => (err = .queueClosed ∧ floor.system.dispatch.shared.closed = true) ∨
      Sourced fromAscii floor.exchanges query (.error err)

variable {fromAscii : String → Except ProtoError Wire} {parse : String → Option Name}
variable {client : BlastDNSClient} {order : Order Fault}

theorem returned_backed {floor : Floor n lru} {caller : Caller} {result : Answer}
    (traced : CallerTraced fromAscii parse floor caller)
    (place : caller.progress = .returned result) :
    Backed fromAscii parse floor caller.query result := by
  rw [CallerTraced, place] at traced
  cases result with
  | ok response =>
      rcases traced with replied | ⟨_, query, key, replied⟩
      · exact ⟨caller.query, .inl rfl, replied⟩
      · exact ⟨query, .inr key, replied⟩
  | error err => exact traced

/-- What the stream yields is the kept result of a call made for that host. -/
theorem yielded_returned {haul : Haul Fault n lru} (hauls : Hauls client order haul)
    {host : String} {result : Answer} (member : (host, result) ∈ haul.yielded) :
    order.keeps result = true ∧ ∃ caller ∈ haul.desk.procs,
      caller.progress = .returned result ∧ caller.query = (order.caller host).query := by
  rw [hauls.written.yielded] at member
  rcases List.mem_flatMap.mp member with ⟨index, finished, inside⟩
  rcases hauls.written.finished index finished with ⟨caller, answer, held, place⟩
  simp only [Order.outcome, held, place, Order.filtered] at inside
  split at inside
  swap
  · cases inside
  rename_i kept
  cases List.mem_singleton.mp inside
  refine ⟨kept, caller, List.mem_of_getElem? held, place, ?_⟩
  rcases hauls.written.calls with ⟨hosts, made, _⟩
  have mine : index ∈ haul.started :=
    hauls.parts.subset (List.mem_append_right _ (List.mem_append_left _ finished))
  rcases started_made made mine with ⟨_, same, there, _, _, recordType⟩
  cases held.symm.trans there
  rw [Caller.query, Caller.query, recordType]
  rfl

/-- In every interleaving of a batch with whatever else is called on the client, there is one
call for each host that was pulled, in their order; each of these calls is in progress,
has returned, panicked or been dropped with the stream, with no more in progress than
the buffer holds. What the stream yields are the results of the calls as they complete,
less those it skips, and each can be traced to the network or to why nothing was asked. A
stream that is dropped drops all its calls and starts no other, and its iterator is
pulled at most once more. -/
theorem batch_calls_each_host_once {latest : ℕ} {haul : Haul Fault client.resolvers.length lru}
    (reached : Relation.ReflTransGen (HaulSteps fromAscii client parse latest order)
      (newHaul Fault lru client) haul) :
    (∃ hosts, List.Forall₂ (MadeFor order haul.desk) haul.started hosts ∧
      hosts ++ pendingHosts haul.pending = hostsBefore order.hosts haul.pulls) ∧
    haul.started.Nodup ∧
    (haul.inProgress ++ (haul.finished ++ (haul.lost ++ haul.cancelled))).Perm haul.started ∧
    haul.inProgress.length ≤ getConcurrency client * 2 ∧
    haul.yielded = haul.finished.flatMap (order.outcome haul.desk) ∧
    (∀ host result, (host, result) ∈ haul.yielded → order.keeps result = true ∧
      Backed fromAscii parse haul.desk.shared (order.caller host).query result) ∧
    (haul.live = false → haul.inProgress = [] ∧
      (∀ index ∈ haul.started, ∃ caller, haul.desk.procs[index]? = some caller ∧
        ended caller = true) ∧
      ∀ late, Relation.ReflTransGen (HaulSteps fromAscii client parse latest order) haul late →
        late.started = haul.started ∧ late.yielded = haul.yielded ∧
          late.pulls ≤ haul.pulls + 1) := by
  have hauls := reached_hauls reached
  have written := hauls.written
  refine ⟨written.calls, ?_, hauls.parts, le_of_add_le_left hauls.room, written.yielded, ?_, ?_⟩
  · exact hauls.rising.imp fun less => Nat.ne_of_lt less
  · intro host result member
    rcases yielded_returned hauls member with ⟨kept, caller, inside, place, same⟩
    have traced := ((reached_traced (reached_desk reached)).callers caller inside).1
    exact ⟨kept, same ▸ returned_backed traced place⟩
  · intro gone
    have none := hauls.dropped gone
    refine ⟨none, ?_, fun late later => late_dropped later gone⟩
    intro index member
    have ends := hauls.parts.symm.subset member
    rw [none, List.nil_append, List.mem_append, List.mem_append] at ends
    rcases ends with done | lost | dropped
    · rcases written.finished index done with ⟨caller, result, held, place⟩
      exact ⟨caller, held, by simp [ended, place]⟩
    · rcases written.lost index lost with ⟨caller, held, place⟩
      exact ⟨caller, held, by simp [ended, place]⟩
    · rcases written.cancelled index dropped with ⟨caller, held, place⟩
      exact ⟨caller, held, by simp [ended, place]⟩

end Safety

/-- A batch of A queries for two hosts. -/
def twoHosts : Order Unit where
  handle := 0
  hosts := finiteSource [.ok "a.example", .ok "b.example"]
  recordType := 1
  skipEmpty := true
  skipErrors := true

def usedHandle : List (HaulEvent 1) :=
  [.desk (.system (.startInit 0)), .desk (.system (.finishInit 0))]

/-- The call at this place has its query answered by the only worker. -/
def answered (index : ℕ) : List (HaulEvent 1) :=
  [List.replicate 3 (.desk (.call index .proceed)),
    List.replicate 10 (.desk (.system (.worker 0 .proceed))),
    [.desk (.system (.worker 0 (.answer (.ok shortAnswer))))],
    List.replicate 3 (.desk (.system (.worker 0 .proceed))),
    List.replicate 4 (.desk (.call index .proceed))].flatten

/-- The first host is answered; the second is dropped with the stream. -/
theorem batch_calls_each_host_once_dropped :
    ∃ haul : Haul Unit 1 (listed : LruCache (String × ℕ) CacheEntry),
      haul.yielded = [("a.example", .ok shortAnswer)] ∧ haul.cancelled = [1] ∧
      Backed anyName some haul.desk.shared ⟨"a.example", 1⟩ (.ok shortAnswer) ∧
      ∃ caller, haul.desk.procs[1]? = some caller ∧ ended caller = true := by
  let script : List (HaulEvent 1) :=
    [usedHandle, [.spawn, .pull, .poll], answered 0,
      [.complete 0, .spawn, .pull, .poll, .drop]].flatten
  have played : (script.foldlM (haulStep anyName narrowClient some (10 ^ 30) twoHosts)
      (newHaul Unit (listed : LruCache (String × ℕ) CacheEntry) narrowClient)).map
        (fun haul => (haul.yielded, haul.started, haul.cancelled, haul.live)) =
      some ([("a.example", .ok shortAnswer)], [0, 1], [1], false) := by
    decide
  rcases Option.map_eq_some_iff.mp played with ⟨haul, replayed, seen⟩
  simp only [Prod.mk.injEq] at seen
  rcases seen with ⟨yielded, started, cancelled, gone⟩
  rcases batch_calls_each_host_once (replay_reaches replayed) with
    ⟨_, _, _, _, _, backed, dropped⟩
  have first := (backed "a.example" (.ok shortAnswer) (by simp [yielded])).2
  have second := (dropped gone).2.1 1 (by simp [started])
  exact ⟨haul, yielded, cancelled, first, second⟩

section Fair

variable {Name : Type} [DecidableEq Name] {lru : LruCache (Name × ℕ) CacheEntry} {n : ℕ}
variable {Wire : Type}

/-- The stream has yielded all it will yield. -/
def Through (haul : Haul Fault n lru) : Prop := haul.exhausted = true ∧ haul.inProgress = []

/-- A move of the stream itself. -/
def Own : HaulEvent n → Prop
  | .spawn | .pull | .poll | .complete _ => True
  | .desk _ | .drop => False

def Hauling (event : HaulEvent n) : Prop :=
  Own event ∨ ∃ beneath, event = .desk beneath ∧ Tending beneath

/-- An initialiser runs inside a call, be it one of the batch or of somebody else. -/
def haulStrays (haul : Haul Fault n lru) : HaulEvent n → Bool
  | .desk event => strays haul.desk event
  | _ => false

def tendedHaulStep (fromAscii : String → Except ProtoError Wire) (client : BlastDNSClient)
    (parse : String → Option Name) (latest : ℕ) (order : Order Fault) (haul : Haul Fault n lru)
    (event : HaulEvent n) : Option (Haul Fault n lru) :=
  if haulStrays haul event then none
  else haulStep fromAscii client parse latest order haul event

def HaulEnabled (fromAscii : String → Except ProtoError Wire) (client : BlastDNSClient)
    (parse : String → Option Name) (latest : ℕ) (order : Order Fault) (haul : Haul Fault n lru) :
    Prop :=
  TendedEnabled fromAscii client.config parse latest haul.desk ∨
    ∃ event, Own event ∧
      (haulStep fromAscii client parse latest order haul event).isSome = true

/-- A run of a batch that is not dropped, on which the calls of others and the initialisers
dropped with a call are only so many: time passes, and where somebody can move for
ever, somebody does. -/
structure FairHaul (fromAscii : String → Except ProtoError Wire) (client : BlastDNSClient)
    (parse : String → Option Name) (latest : ℕ) (order : Order Fault) (inputs : ℕ → HaulEvent n)
    (states : ℕ → Haul Fault n lru) : Prop where
  run : Run (tendedHaulStep fromAscii client parse latest order) inputs states
  attended : ∀ time, inputs time ≠ .drop
  settles : ∃ since, ∀ time, since ≤ time → ∀ event, inputs time = .desk event → Settled event
  passes : ∀ boundNs, ∃ time, boundNs ≤ (states time).desk.shared.nowNs
  moves : ∀ start,
    (∀ time, start ≤ time → HaulEnabled fromAscii client parse latest order (states time)) →
      ∃ time, start ≤ time ∧ Hauling (inputs time)

/-- What the end of a batch relies on. -/
structure Serves (permits : ℕ) (client : BlastDNSClient) (order : Order Fault)
    (haul : Haul Fault n lru) : Prop where
  hauls : Hauls client order haul
  sound : Sound permits client.config haul.desk
  handle : order.handle < haul.desk.shared.system.handles.length
  live : haul.live = true

variable {fromAscii : String → Except ProtoError Wire} {client : BlastDNSClient}
variable {parse : String → Option Name} {latest : ℕ} {order : Order Fault} {permits : ℕ}
variable {haul after : Haul Fault n lru} {event : HaulEvent n}

theorem desk_step_kept {desk later : Desk n lru} {event : DeskEvent n}
    (stepped : deskStep fromAscii client.config parse latest desk event = some later) :
    Kept desk.shared.system later.shared.system := by
  rcases desk_step_beneath stepped with same | ⟨action, moved, _⟩
  · rw [same]
    exact kept_refl _
  · exact system_step_kept moved

theorem tended_haul_step {event : HaulEvent n}
    (stepped : tendedHaulStep fromAscii client parse latest order haul event = some after) :
    haulStrays haul event = false ∧
      Hauled fromAscii client parse latest order haul event after := by
  unfold tendedHaulStep at stepped
  split at stepped
  · cases stepped
  · rename_i stays
    exact ⟨Bool.eq_false_iff.mpr stays, haul_step_hauled stepped⟩

theorem hauled_serves (hauled : Hauled fromAscii client parse latest order haul event after)
    (attended : event ≠ .drop) (serves : Serves permits client order haul) :
    Serves permits client order after := by
  have hauls := hauled_hauls hauled serves.hauls
  rcases serves with ⟨_, sound, handle, live⟩
  cases hauled with
  | beside stepped =>
      exact ⟨hauls, desk_step_sound ⟨_, stepped⟩ sound,
        handle.trans_le (desk_step_kept stepped).handles, live⟩
  | starts _ _ arrived =>
      exact ⟨hauls, desk_step_sound ⟨_, arrived⟩ sound,
        handle.trans_le (desk_step_kept arrived).handles, live⟩
  | drops => exact absurd rfl attended
  | _ => exact ⟨hauls, sound, handle, live⟩

section Rank

variable (items : List (Except Fault String))

/-- Steps left to the host stream. -/
def hostsLeft (haul : Haul Fault n lru) : ℕ :=
  4 * (items.length - haul.pulls) +
    match haul.exhausted, haul.pending with
    | true, _ => 0
    | false, .idle => 3
    | false, .spawned => 2
    | false, .ready (some _) => 5
    | false, .ready none => 1

/-- A host that is still to come counts for more than all its call may do. -/
noncomputable def haulRank (attempts : ℕ) (haul : Haul Fault n lru) :
    ℕ ×ₗ (ℕ ×ₗ ℕ ×ₗ ℕ ×ₗ ℕ ×ₗ ℕ ×ₗ ℕ) ×ₗ ℕ :=
  toLex (hostsLeft items haul, toLex (tendedRank attempts haul.desk, haul.inProgress.length))

variable {items} {attempts : ℕ}

theorem rank_hosts (fewer : hostsLeft items after < hostsLeft items haul) :
    haulRank items attempts after < haulRank items attempts haul :=
  Prod.Lex.toLex_lt_toLex.mpr (.inl fewer)

theorem rank_progress (same : hostsLeft items after = hostsLeft items haul)
    (beneath : after.desk = haul.desk)
    (fewer : after.inProgress.length < haul.inProgress.length) :
    haulRank items attempts after < haulRank items attempts haul := by
  refine Prod.Lex.toLex_lt_toLex.mpr (.inr ⟨same, Prod.Lex.toLex_lt_toLex.mpr (.inr ⟨?_, fewer⟩)⟩)
  dsimp only
  rw [beneath]

theorem rank_desk {desk : Desk n lru}
    (lower : tendedRank attempts desk < tendedRank attempts haul.desk) :
    haulRank items attempts { haul with desk := desk } < haulRank items attempts haul :=
  Prod.Lex.toLex_lt_toLex.mpr (.inr ⟨rfl, Prod.Lex.toLex_lt_toLex.mpr (.inl lower)⟩)

theorem rank_desk_le {desk : Desk n lru}
    (eased : tendedRank attempts desk ≤ tendedRank attempts haul.desk) :
    haulRank items attempts { haul with desk := desk } ≤ haulRank items attempts haul :=
  Prod.Lex.toLex_le_toLex.mpr (.inr ⟨rfl, Prod.Lex.toLex_mono ⟨eased, le_rfl⟩⟩)

theorem pending_fresh (hauls : Hauls client order haul) (some : haul.pending ≠ .idle) :
    haul.exhausted = false := by
  cases spent : haul.exhausted with
  | false => rfl
  | true => exact absurd (hauls.exhausted spent).1 some

theorem erase_fewer {values : List ℕ} {position index : ℕ}
    (found : values[position]? = some index) :
    (values.eraseIdx position).length < values.length := by
  rcases List.getElem?_eq_some_iff.mp found with ⟨inside, _⟩
  rw [List.length_eraseIdx_of_lt inside]
  omega

/-- No step raises the rank of a batch over finitely many hosts, and a move lowers it. -/
theorem hauled_pays (finite : order.hosts = finiteSource items) (small : n ≤ 2 ^ 64)
    (hauled : Hauled fromAscii client parse latest order haul event after)
    (stays : haulStrays haul event = false) (attended : event ≠ .drop)
    (settled : ∀ beneath, event = .desk beneath → Settled beneath)
    (serves : Serves permits client order haul) :
    haulRank items (attemptsFor client.config.maxRetries) after ≤
        haulRank items (attemptsFor client.config.maxRetries) haul ∧
      (Hauling event → haulRank items (attemptsFor client.config.maxRetries) after <
        haulRank items (attemptsFor client.config.maxRetries) haul) := by
  have strictly : haulRank items (attemptsFor client.config.maxRetries) after <
      haulRank items (attemptsFor client.config.maxRetries) haul →
      haulRank items (attemptsFor client.config.maxRetries) after ≤
        haulRank items (attemptsFor client.config.maxRetries) haul ∧
      (Hauling event → haulRank items (attemptsFor client.config.maxRetries) after <
        haulRank items (attemptsFor client.config.maxRetries) haul) :=
    fun lower => ⟨lower.le, fun _ => lower⟩
  cases hauled with
  | beside stepped =>
      have tended : tendedStep fromAscii client.config parse latest haul.desk _ = some _ :=
        (if_neg (Bool.eq_false_iff.mp stays)).trans stepped
      have eases := desk_step_eases small serves.sound tended (settled _ rfl)
      refine ⟨rank_desk_le eases.1, ?_⟩
      rintro (own | ⟨beneath, same, moving⟩)
      · exact own.elim
      · cases same
        exact rank_desk (eases.2 moving)
  | spawns idle _ more =>
      apply strictly (rank_hosts _)
      simp [hostsLeft, idle, more]
  | pulls spawned =>
      apply strictly (rank_hosts _)
      have more := pending_fresh serves.hauls (by simp [spawned])
      have next : order.hosts haul.pulls = items[haul.pulls]? := by rw [finite, finiteSource]
      by_cases inside : haul.pulls < items.length
      · rw [List.getElem?_eq_getElem inside] at next
        simp only [hostsLeft, spawned, more, next]
        omega
      · rw [List.getElem?_eq_none (not_lt.mp inside)] at next
        simp only [hostsLeft, spawned, more, next]
        omega
  | starts _ ready =>
      apply strictly (rank_hosts _)
      have more := pending_fresh serves.hauls (by simp [ready])
      simp [hostsLeft, ready, more]
  | skips _ ready =>
      apply strictly (rank_hosts _)
      have more := pending_fresh serves.hauls (by simp [ready])
      simp [hostsLeft, ready, more]
  | exhausts _ ready =>
      apply strictly (rank_hosts _)
      have more := pending_fresh serves.hauls (by simp [ready])
      simp [hostsLeft, ready, more]
  | yields _ found => exact strictly (rank_progress rfl rfl (erase_fewer found))
  | loses _ found => exact strictly (rank_progress rfl rfl (erase_fewer found))
  | drops => exact absurd rfl attended

end Rank

/-- Nobody has moved between these states. -/
structure Unmoved (haul after : Haul Fault n lru) : Prop where
  exhausted : after.exhausted = haul.exhausted
  inProgress : after.inProgress = haul.inProgress
  procs : after.desk.shared.system.dispatch.procs = haul.desk.shared.system.dispatch.procs

theorem still_hauled (hauled : Hauled fromAscii client parse latest order haul event after)
    (attended : event ≠ .drop) (settled : ∀ beneath, event = .desk beneath → Settled beneath)
    (still : ¬ Hauling event) : Unmoved haul after := by
  cases hauled with
  | beside stepped =>
      have unmoved := still_step stepped (settled _ rfl)
        (fun moving => still (.inr ⟨_, rfl, moving⟩))
      exact ⟨rfl, rfl, unmoved.2.1⟩
  | drops => exact absurd rfl attended
  | _ => exact absurd (.inl trivial) still

/-- With the workers at rest and all calls over, the stream itself can move. -/
theorem own_enabled (serves : Serves permits client order haul)
    (all : ∀ caller ∈ haul.desk.procs, ended caller = true) (left : ¬ Through haul) :
    ∃ event, Own event ∧
      (haulStep fromAscii client parse latest order haul event).isSome = true := by
  have live := serves.live
  cases progress : haul.inProgress with
  | cons index rest =>
      rcases serves.hauls.written.calls with ⟨hosts, made, _⟩
      have first : index ∈ haul.inProgress := by simp [progress]
      have inside := started_inside made index
        (serves.hauls.parts.subset (List.mem_append_left _ first))
      have held := List.getElem?_eq_getElem inside
      have kept := serves.hauls.running index first _ held
      have done := all _ (List.getElem_mem inside)
      refine ⟨.complete 0, trivial, ?_⟩
      simp only [haulStep, live, if_true, completeStep, progress, List.getElem?_cons_zero]
      unfold ended at done
      cases place : haul.desk.procs[index].progress <;> simp_all
  | nil =>
      have more : haul.exhausted = false := by
        cases spent : haul.exhausted with
        | false => rfl
        | true => exact absurd ⟨spent, progress⟩ left
      have room := get_concurrency_pos client
      match pending : haul.pending with
      | .idle => exact ⟨.spawn, trivial, by simp [haulStep, pending, live, more, progress, room.ne']⟩
      | .spawned => exact ⟨.pull, trivial, by simp [haulStep, pending]⟩
      | .ready none => exact ⟨.poll, trivial, by simp [haulStep, live, pollStep, pending]⟩
      | .ready (some (.error fault)) =>
          exact ⟨.poll, trivial, by simp [haulStep, live, pollStep, pending]⟩
      | .ready (some (.ok host)) =>
          exact ⟨.poll, trivial,
            by simp [haulStep, live, pollStep, pending, deskStep, serves.handle]⟩

theorem haul_enabled (serves : Serves permits client order haul) (some : 0 < permits)
    (awake : ∀ item untilNs,
      Phase.working item (.sleeping untilNs) ∈ haul.desk.shared.system.dispatch.procs →
        untilNs ≤ haul.desk.shared.nowNs)
    (left : ¬ Through haul) : HaulEnabled fromAscii client parse latest order haul := by
  by_cases drained : Drained haul.desk.shared.system.dispatch
  · by_cases all : ∀ caller ∈ haul.desk.procs, ended caller = true
    · exact .inr (own_enabled serves all left)
    · push Not at all
      rcases all with ⟨caller, member, running⟩
      exact .inl (tended_enabled serves.sound drained member (Bool.eq_false_iff.mpr running))
  · exact .inl (.inl (.inl (work_left_enabled serves.sound.serving.standing some awake drained)))

section Runs

variable {items : List (Except Fault String)}
variable {inputs : ℕ → HaulEvent n} {states : ℕ → Haul Fault n lru}
variable (fair : FairHaul fromAscii client parse latest order inputs states)

include fair

theorem fair_serves (start : Serves permits client order (states 0)) (time : ℕ) :
    Serves permits client order (states time) := by
  induction time with
  | zero => exact start
  | succ time ih => exact hauled_serves (tended_haul_step (fair.run time)).2 (fair.attended time) ih

theorem fair_clock {first last : ℕ} (later : first ≤ last) :
    (states first).desk.shared.nowNs ≤ (states last).desk.shared.nowNs := by
  refine monotone_nat_of_le_succ (f := fun time => (states time).desk.shared.nowNs) ?_ later
  intro time
  refine reachable_invariant
    (fun desk : Desk n lru => (states time).desk.shared.nowNs ≤ desk.shared.nowNs) ?_
    (hauled_beneath (tended_haul_step (fair.run time)).2) le_rfl
  intro before after early stepped
  exact early.trans (desk_step_later stepped)

theorem fair_unmoved {quiet : ℕ}
    (settled : ∀ time, quiet ≤ time → ∀ event, inputs time = .desk event → Settled event)
    (still : ∀ time, quiet ≤ time → ¬ Hauling (inputs time))
    {time : ℕ} (later : quiet ≤ time) : Unmoved (states quiet) (states time) := by
  induction time, later using Nat.le_induction with
  | base => exact ⟨rfl, rfl, rfl⟩
  | succ time later ih =>
      have unmoved := still_hauled (tended_haul_step (fair.run time)).2 (fair.attended time)
        (settled time later) (still time later)
      exact ⟨unmoved.exhausted.trans ih.exhausted, unmoved.inProgress.trans ih.inProgress,
        unmoved.procs.trans ih.procs⟩

theorem fair_through (finite : order.hosts = finiteSource items) (small : n ≤ 2 ^ 64)
    (some : 0 < permits) (start : Serves permits client order (states 0)) :
    ∃ settled, ∀ time, settled ≤ time → Through (states time) := by
  have serves := fair_serves fair start
  rcases fair.settles with ⟨since, settled⟩
  have pays := fun time later =>
    have tended := tended_haul_step (fair.run time)
    hauled_pays finite small tended.2 tended.1 (fair.attended time) (settled time later)
      (serves time)
  rcases events_end_since
    (fun time => haulRank items (attemptsFor client.config.maxRetries) (states time))
    (fun time => Hauling (inputs time)) since (fun time later => (pays time later).1)
    (fun time later => (pays time later).2) with ⟨quiet, begun, still⟩
  have calm := fun time later => settled time (begun.trans later)
  refine ⟨quiet, ?_⟩
  have through : Through (states quiet) := by
    by_contra left
    rcases sleepers_bounded (states quiet).desk.shared.system.dispatch.procs with
      ⟨boundNs, bounded⟩
    rcases fair.passes boundNs with ⟨due, passed⟩
    have able : ∀ time, max quiet due ≤ time →
        HaulEnabled fromAscii client parse latest order (states time) := by
      intro time later
      rcases max_le_iff.mp later with ⟨afterQuiet, afterDue⟩
      have unmoved := fair_unmoved fair calm still afterQuiet
      apply haul_enabled (serves time) some
      · intro item untilNs member
        exact (bounded item untilNs (unmoved.procs ▸ member)).trans
          (passed.trans (fair_clock fair afterDue))
      · rintro ⟨exhausted, progress⟩
        exact left ⟨unmoved.exhausted ▸ exhausted, unmoved.inProgress ▸ progress⟩
    rcases fair.moves _ able with ⟨time, later, moved⟩
    exact still time (le_of_max_le_left later) moved
  intro time later
  have unmoved := fair_unmoved fair calm still later
  exact ⟨unmoved.exhausted.trans through.1, unmoved.inProgress.trans through.2⟩

end Runs

/-- A stream that is through has called for every host and has the outcome of every call. -/
theorem through_accounts {items : List (Except Fault String)}
    (finite : order.hosts = finiteSource items) (serves : Serves permits client order haul)
    (through : Through haul) :
    List.Forall₂ (MadeFor order haul.desk) haul.started (items.filterMap Except.toOption) ∧
      (haul.finished ++ haul.lost).Perm haul.started ∧
      haul.yielded.Perm (haul.started.flatMap (order.outcome haul.desk)) := by
  have hauls := serves.hauls
  rcases hauls.exhausted through.1 with ⟨idle, pull, pulls, none⟩
  rcases hauls.written.calls with ⟨hosts, made, same⟩
  rw [finite, finiteSource, List.getElem?_eq_none_iff] at none
  have all : hosts = items.filterMap Except.toOption := by
    rw [idle, finite, finite_hosts, List.take_of_length_le (by omega)] at same
    simpa [pendingHosts] using same
  have parts := hauls.parts
  rw [through.2, hauls.undropped serves.live, List.nil_append, List.append_nil] at parts
  refine ⟨all ▸ made, parts, ?_⟩
  have unheard : haul.lost.flatMap (order.outcome haul.desk) = [] := by
    apply List.flatMap_eq_nil_iff.mpr
    intro index member
    rcases hauls.written.lost index member with ⟨caller, held, place⟩
    simp only [Order.outcome, held, place]
  have split := parts.flatMap_right (order.outcome haul.desk)
  rw [List.flatMap_append, unheard, List.append_nil, ← hauls.written.yielded] at split
  exact split

end Fair

/-- Over finitely many hosts a batch comes to its end, on every schedule that keeps going and
on which the stream is polled: it has made one call for each host, in their order, and
each has returned, or panicked in the cache; what it has yielded are the results of
those that returned, less what it skips. -/
theorem every_batch_ends {Name : Type} [DecidableEq Name] {lru : LruCache (Name × ℕ) CacheEntry}
    {Wire : Type} (fromAscii : String → Except ProtoError Wire) {parse : String → Option Name}
    {latest : ℕ} {host : Host} {texts : List String} {config : BlastDNSConfig}
    {client : BlastDNSClient} (accepted : withConfig host texts config = some (.ok client))
    (small : client.resolvers.length ≤ 2 ^ 64) {order : Order Fault}
    {items : List (Except Fault String)} (finite : order.hosts = finiteSource items)
    {haul : Haul Fault client.resolvers.length lru}
    (reached : Relation.ReflTransGen (HaulSteps fromAscii client parse latest order)
      (newHaul Fault lru client) haul) (live : haul.live = true)
    (handle : order.handle < haul.desk.shared.system.handles.length)
    {inputs : ℕ → HaulEvent client.resolvers.length}
    {states : ℕ → Haul Fault client.resolvers.length lru} (start : states 0 = haul)
    (fair : FairHaul fromAscii client parse latest order inputs states) :
    ∃ settled, ∀ time, settled ≤ time → Through (states time) ∧
      List.Forall₂ (MadeFor order (states time).desk) (states time).started
        (items.filterMap Except.toOption) ∧
      (∀ index ∈ (states time).started, ∃ caller, (states time).desk.procs[index]? = some caller ∧
        ((∃ result, caller.progress = .returned result) ∨ caller.progress = .panicked)) ∧
      (states time).yielded.Perm
        ((states time).started.flatMap (order.outcome (states time).desk)) := by
  rcases with_config_ok accepted with ⟨_, _, _, _, capacity⟩
  have sound : Sound (max client.config.maxInflightPerResolver 1) client.config haul.desk :=
    reachable_invariant (Sound (max client.config.maxInflightPerResolver 1) client.config)
      (fun _ _ kept stepped => desk_step_sound stepped kept) (reached_desk reached)
      (new_desk_sound (by omega))
  have serves : Serves (max client.config.maxInflightPerResolver 1) client order (states 0) :=
    start ▸ ⟨reached_hauls reached, sound, handle, live⟩
  rcases fair_through fair finite small (by omega) serves with ⟨settled, through⟩
  refine ⟨settled, ?_⟩
  intro time later
  have kept := fair_serves fair serves time
  rcases through_accounts finite kept (through time later) with ⟨made, parts, yields⟩
  refine ⟨through time later, made, ?_, yields⟩
  intro index member
  rcases List.mem_append.mp (parts.symm.subset member) with done | lost
  · rcases kept.hauls.written.finished index done with ⟨caller, result, held, place⟩
    exact ⟨caller, held, .inl ⟨result, place⟩⟩
  · rcases kept.hauls.written.lost index lost with ⟨caller, held, place⟩
    exact ⟨caller, held, .inr place⟩

section Rests

variable {Name : Type} [DecidableEq Name] {lru : LruCache (Name × ℕ) CacheEntry} {n : ℕ}
variable {Wire : Type} {fromAscii : String → Except ProtoError Wire} {client : BlastDNSClient}
variable {parse : String → Option Name} {latest : ℕ} {order : Order Fault}

def haulResting (haul : Haul Fault n lru) : Bool :=
  deskResting haul.desk && haul.exhausted && haul.inProgress.isEmpty &&
    match haul.pending with
    | .idle => true
    | .spawned | .ready _ => false

theorem haul_resting_not_enabled {last : Haul Fault n lru} (rests : haulResting last = true) :
    ¬ HaulEnabled fromAscii client parse latest order last := by
  simp only [haulResting, Bool.and_eq_true, List.isEmpty_iff] at rests
  rcases rests with ⟨⟨⟨desk, exhausted⟩, progress⟩, quiet⟩
  split at quiet
  swap
  · cases quiet
  · rename_i idle
    rintro (works | ⟨event, own, steps⟩)
    · exact desk_resting_not_enabled desk works
    · cases event with
      | desk event => exact own
      | drop => exact own
      | spawn => simp [haulStep, idle, exhausted] at steps
      | pull => simp [haulStep, idle] at steps
      | poll => simp [haulStep, pollStep, idle] at steps
      | complete position => simp [haulStep, completeStep, progress] at steps
  · cases quiet

def haulElapsed (haul : Haul Fault n lru) (nanos : ℕ) : Haul Fault n lru :=
  { haul with desk := deskElapsed haul.desk nanos }

/-- Any script that takes a batch to its end and leaves nobody behind is the start of a fair
run. -/
theorem fair_haul_after_script {first last : Haul Fault n lru} {script : List (HaulEvent n)}
    (attended : .drop ∉ script) (settled : ∀ event, .desk event ∈ script → Settled event)
    (played : script.foldlM (tendedHaulStep fromAscii client parse latest order) first =
      some last)
    (rests : haulResting last = true) :
    ∃ inputs states, states 0 = first ∧
      FairHaul fromAscii client parse latest order inputs states := by
  have waits : Run (tendedHaulStep fromAscii client parse latest order)
      (fun _ => .desk (.system (.around (.elapse 1)))) (haulElapsed last) := by
    intro time
    simp [tendedHaulStep, haulStrays, strays, haulStep, cancels, deskStep, systemStep, dispatchTo, dispatchStep, environmentStep,
      haulElapsed, deskElapsed, elapsed, noted, Nat.add_assoc]
  have reaches : script.foldlM (tendedHaulStep fromAscii client parse latest order) first =
      some (haulElapsed last 0) := played
  rcases run_after_replay (haulElapsed last) reaches waits with
    ⟨inputs, states, start, run, drawn, ends⟩
  refine ⟨inputs, states, start, run, ?_, ⟨0, ?_⟩, ?_, ?_⟩
  · intro time drops
    rcases drawn time with inside | ⟨_, waiting⟩
    · exact attended (drops ▸ inside)
    · rw [drops] at waiting
      cases waiting
  · intro time _ event happens
    rcases drawn time with inside | ⟨_, waiting⟩
    · exact settled event (happens ▸ inside)
    · cases happens.symm.trans waiting
      exact ⟨by simp, by simp⟩
  · intro boundNs
    refine ⟨script.length + boundNs, ?_⟩
    rw [ends boundNs]
    exact Nat.le_add_left boundNs _
  · intro since able
    have stuck : ¬ HaulEnabled fromAscii client parse latest order
        (states (script.length + since)) := by
      rw [ends since]
      exact haul_resting_not_enabled rests
    exact absurd (able _ (Nat.le_add_left since script.length)) stuck

end Rests

/-- A client is used for the first time, by a batch of two hosts, each answered before the
next is pulled. -/
theorem every_batch_ends_two :
    ∃ (inputs : ℕ → HaulEvent 1)
      (states : ℕ → Haul Unit 1 (listed : LruCache (String × ℕ) CacheEntry)),
      states 0 = newHaul Unit listed narrowClient ∧
      FairHaul anyName narrowClient some (10 ^ 30) twoHosts inputs states ∧
      ∃ settled, (states settled).started.length = 2 := by
  let script : List (HaulEvent 1) :=
    [[.spawn, .pull, .poll], usedHandle, answered 0, [.complete 0, .spawn, .pull, .poll],
      answered 1, [.complete 0, .spawn, .pull, .poll]].flatten
  have rested : (script.foldlM (tendedHaulStep anyName narrowClient some (10 ^ 30) twoHosts)
      (newHaul Unit (listed : LruCache (String × ℕ) CacheEntry) narrowClient)).map haulResting =
      some true := by
    decide
  rcases Option.map_eq_some_iff.mp rested with ⟨last, played, rests⟩
  have settles : ∀ event, .desk event ∈ script → Settled event := by
    intro event member
    constructor
    · rintro handle host recordType rfl
      simp [script, answered, usedHandle] at member
    · rintro handle rfl
      simp [script, answered, usedHandle] at member
  rcases fair_haul_after_script (by simp [script, answered, usedHandle]) settles played rests with
    ⟨inputs, states, start, fair⟩
  rcases every_batch_ends anyName (plain_client_accepted rfl bare_texts rfl rfl) (by decide) rfl
    .refl rfl (by decide) start fair with ⟨settled, ends⟩
  exact ⟨inputs, states, start, fair, settled, (ends settled le_rfl).2.1.length_eq⟩

end BlastDns.BatchRuns
