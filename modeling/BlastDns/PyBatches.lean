import BlastDns.Batch

/-!
The async iterators that hand a batch over to Python, `src/python.rs`. The stream of
results stands behind a fair mutex. A call of `__anext__` spawns a task that comes to the
mutex in its own time, and collects from the stream until it has a thousand results, or
some and 200 ms have gone by, or the stream ends. Any number of calls may be under way at
once, and a call may be dropped before its task runs and wherever it awaits: while it
waits for the mutex, or for the next result with some already in hand.

The time is looked at only between results, so a call that waits for one waits on.
-/

namespace BlastDns.PyBatches

open Batch NetText Runs Worker

/-- A call of `__anext__` that has the mutex. -/
structure Hand (Out : Type) where
  call : ℕ
  batch : List Out := []
  startNs : ℕ
  -- past the check at the head of the loop, in `stream.next().await`
  polling : Bool := false

inductive Ending (Out Raised : Type) where
  | gave (batch : List Out) (heldNs : ℕ)
  -- `StopAsyncIteration`
  | stopped
  -- a result that would not serialise
  | raised (batch : List Out) (exception : Raised)
  -- dropped with results in hand, or before it had the mutex
  | dropped (batch : List Out)
  | abandoned

/-- The results that a call took from the stream, whatever became of them. -/
def Ending.contents {Out Raised : Type} : Ending Out Raised → List (Except Raised Out)
  | .gave batch _ | .dropped batch => batch.map .ok
  | .raised batch exception => batch.map .ok ++ [.error exception]
  | .stopped | .abandoned => []

def Ending.entered {Out Raised : Type} : Ending Out Raised → Bool
  | .abandoned => false
  | _ => true

def Ending.isStop {Out Raised : Type} : Ending Out Raised → Bool
  | .stopped => true
  | _ => false

structure Line (Fault Out Raised : Type) where
  stream : BatchStream Fault := {}
  nowNs : ℕ := 0
  asked : ℕ := 0
  -- tasks on their way to the mutex, on however many threads
  spawned : List ℕ := []
  -- for the mutex, first come first served
  waiting : List ℕ := []
  -- all who came to the mutex, in order
  arrived : List ℕ := []
  holder : Option (Hand Out) := none
  endings : List (ℕ × Ending Out Raised) := []

inductive LineEvent where
  -- `__anext__` is called, and hands its future to the runtime
  | ask
  -- the future is polled, as far as `inner.lock().await`
  | reach (call : ℕ)
  | enter
  | check
  -- the holder polls the stream, and something moves in it
  | poll (event : Event)
  | finish
  -- the host iterator runs on a thread of its own
  | pull
  | cancel (call : ℕ)
  | elapse (nanos : ℕ)

def batchLimit : ℕ := 1000

def timeoutNs : ℕ := 200 * 10 ^ 6

variable {Fault Out Raised : Type}

namespace Line

def ends (line : Line Fault Out Raised) (hand : Hand Out) (ending : Ending Out Raised) :
    Line Fault Out Raised :=
  { line with holder := none, endings := line.endings ++ [(hand.call, ending)] }

def give (line : Line Fault Out Raised) (hand : Hand Out) : Line Fault Out Raised :=
  line.ends hand (.gave hand.batch (line.nowNs - hand.startNs))

end Line

section Steps

variable (stage : String × Answer → Option (Except Raised Out)) (call : BatchCall Fault)

/-- What the holder makes of the stream after a poll. -/
def receive (line : Line Fault Out Raised) (hand : Hand Out) (stream : BatchStream Fault) :
    Line Fault Out Raised :=
  let polled := { line with stream := stream }
  match (stream.yielded.drop line.stream.yielded.length).head?.bind stage with
  | none => polled
  | some (.ok out) =>
      { polled with holder := some { hand with batch := hand.batch ++ [out], polling := false } }
  | some (.error exception) => polled.ends hand (.raised hand.batch exception)

def lineStep (line : Line Fault Out Raised) : LineEvent → Option (Line Fault Out Raised)
  | .ask => some { line with asked := line.asked + 1, spawned := line.spawned ++ [line.asked] }
  | .reach call =>
      if call ∈ line.spawned then
        some { line with
          spawned := line.spawned.erase call
          waiting := line.waiting ++ [call]
          arrived := line.arrived ++ [call] }
      else none
  | .enter =>
      match line.holder, line.waiting with
      | none, next :: rest =>
          some { line with waiting := rest, holder := some { call := next, startNs := line.nowNs } }
      | _, _ => none
  | .check =>
      line.holder.bind fun hand =>
        if hand.polling then none
        else if batchLimit ≤ hand.batch.length ||
            (!hand.batch.isEmpty && timeoutNs ≤ line.nowNs - hand.startNs) then
          some (line.give hand)
        else some { line with holder := some { hand with polling := true } }
  | .poll .pull => none
  | .poll event =>
      line.holder.bind fun hand =>
        if hand.polling then
          (batchStep call line.stream event).map fun stream => receive stage line hand stream
        else none
  | .finish =>
      line.holder.bind fun hand =>
        if hand.polling && line.stream.ended && line.stream.inProgress.isEmpty then
          if hand.batch.isEmpty then some (line.ends hand .stopped) else some (line.give hand)
        else none
  | .pull =>
      (batchStep call line.stream .pull).map fun stream => { line with stream := stream }
  | .cancel dropped =>
      if dropped ∈ line.spawned then
        some { line with
          spawned := line.spawned.erase dropped
          endings := line.endings ++ [(dropped, .abandoned)] }
      else if dropped ∈ line.waiting then
        some { line with
          waiting := line.waiting.erase dropped
          endings := line.endings ++ [(dropped, .abandoned)] }
      else
        line.holder.bind fun hand =>
          if hand.call = dropped && hand.polling then some (line.ends hand (.dropped hand.batch))
          else none
  | .elapse nanos => some { line with nowNs := line.nowNs + nanos }

def LineSteps (before after : Line Fault Out Raised) : Prop :=
  ∃ event, lineStep stage call before event = some after

end Steps

/-- `PyBatchIterator`: every result of the stream, serialised. -/
def fullItem {Payload : Type} (dnsResponseToBytes : DnsResponse → Except Raised Payload)
    (errorToBytes : BlastDNSError → Except Raised Payload) :
    String × Answer → Option (Except Raised (String × Payload))
  | (host, .ok response) => some ((dnsResponseToBytes response).map fun payload => (host, payload))
  | (host, .error err) => some ((errorToBytes err).map fun payload => (host, payload))

/-- `PyBatchBasicIterator`: the results of `resolve_batch` as they are. -/
def basicItem (typeName : String) (result : String × Answer) :
    Option (Except Raised (String × String × List String)) :=
  (project typeName result).map .ok

section Inversion

variable {stage : String × Answer → Option (Except Raised Out)} {call : BatchCall Fault}
variable {line after : Line Fault Out Raised}

/-- A move of the stream yields one more result, or none. -/
theorem batch_step_yields {stream next : BatchStream Fault} {event : Event}
    (stepped : batchStep call stream event = some next) :
    next.yielded = stream.yielded ∨ ∃ result, next.yielded = stream.yielded ++ [result] := by
  rcases batch_moves_cases ⟨event, stepped⟩ with ⟨_, _, rfl⟩ | ⟨_, rfl⟩ | ⟨_, _, rfl⟩ |
    ⟨_, _, rfl⟩ | ⟨_, rfl⟩ | ⟨_, host, _, rfl⟩
  · exact .inl rfl
  · exact .inl rfl
  · exact .inl rfl
  · exact .inl rfl
  · exact .inl rfl
  · simp only [BatchCall.results, List.map_cons, List.map_nil]
    by_cases kept : call.keeps (call.lookup host).2 = true
    · exact .inr ⟨call.lookup host, by simp [kept]⟩
    · exact .inl (by simp [kept])

/-- What an event can do to the line. -/
inductive Passes (stage : String × Answer → Option (Except Raised Out)) (call : BatchCall Fault)
    (line : Line Fault Out Raised) : LineEvent → Line Fault Out Raised → Prop
  | asks : Passes stage call line .ask
      { line with asked := line.asked + 1, spawned := line.spawned ++ [line.asked] }
  | reaches {id : ℕ} (there : id ∈ line.spawned) : Passes stage call line (.reach id) { line with
      spawned := line.spawned.erase id
      waiting := line.waiting ++ [id]
      arrived := line.arrived ++ [id] }
  | enters {next : ℕ} {rest : List ℕ} (free : line.holder = none)
      (queued : line.waiting = next :: rest) : Passes stage call line .enter
      { line with waiting := rest, holder := some { call := next, startNs := line.nowNs } }
  | resumes {hand : Hand Out} (holds : line.holder = some hand) (fresh : hand.polling = false)
      (short : hand.batch.length < batchLimit) : Passes stage call line .check
      { line with holder := some { hand with polling := true } }
  | gives {event : LineEvent} {hand : Hand Out} (holds : line.holder = some hand)
      (some : hand.batch ≠ [])
      (due : batchLimit ≤ hand.batch.length ∨ timeoutNs ≤ line.nowNs - hand.startNs ∨
        Finished line.stream) : Passes stage call line event (line.give hand)
  | polls {event : Event} {hand : Hand Out} {stream : BatchStream Fault}
      (holds : line.holder = some hand) (moved : BatchMoves call line.stream stream)
      (quiet : stream.yielded.filterMap stage = line.stream.yielded.filterMap stage) :
      Passes stage call line (.poll event) { line with stream := stream }
  | takes {event : Event} {hand : Hand Out} {stream : BatchStream Fault} {out : Out}
      (holds : line.holder = some hand) (polling : hand.polling = true)
      (moved : BatchMoves call line.stream stream)
      (yields : stream.yielded.filterMap stage = line.stream.yielded.filterMap stage ++ [.ok out]) :
      Passes stage call line (.poll event) { line with
        stream := stream
        holder := some { hand with batch := hand.batch ++ [out], polling := false } }
  | raises {event : Event} {hand : Hand Out} {stream : BatchStream Fault} {exception : Raised}
      (holds : line.holder = some hand) (moved : BatchMoves call line.stream stream)
      (yields : stream.yielded.filterMap stage =
        line.stream.yielded.filterMap stage ++ [.error exception]) :
      Passes stage call line (.poll event)
        (Line.ends { line with stream := stream } hand (.raised hand.batch exception))
  | stops {hand : Hand Out} (holds : line.holder = some hand) (none : hand.batch = [])
      (finished : Finished line.stream) : Passes stage call line .finish (line.ends hand .stopped)
  | pulls {stream : BatchStream Fault} (moved : BatchMoves call line.stream stream)
      (quiet : stream.yielded = line.stream.yielded) :
      Passes stage call line .pull { line with stream := stream }
  | forgets {dropped : ℕ} (there : dropped ∈ line.spawned) :
      Passes stage call line (.cancel dropped) { line with
        spawned := line.spawned.erase dropped
        endings := line.endings ++ [(dropped, .abandoned)] }
  | abandons {dropped : ℕ} (queued : dropped ∈ line.waiting) :
      Passes stage call line (.cancel dropped) { line with
        waiting := line.waiting.erase dropped
        endings := line.endings ++ [(dropped, .abandoned)] }
  | drops {dropped : ℕ} {hand : Hand Out} (holds : line.holder = some hand) :
      Passes stage call line (.cancel dropped) (line.ends hand (.dropped hand.batch))
  | elapses {nanos : ℕ} :
      Passes stage call line (.elapse nanos) { line with nowNs := line.nowNs + nanos }

theorem receive_passes {hand : Hand Out} {stream : BatchStream Fault} {event : Event}
    (holds : line.holder = some hand) (polling : hand.polling = true)
    (stepped : batchStep call line.stream event = some stream) :
    Passes stage call line (.poll event) (receive stage line hand stream) := by
  have moved : BatchMoves call line.stream stream := ⟨event, stepped⟩
  rcases batch_step_yields stepped with same | ⟨result, one⟩
  · have nothing : receive stage line hand stream = { line with stream := stream } := by
      simp [receive, same]
    rw [nothing]
    exact .polls holds moved (by rw [same])
  · cases staged : stage result with
    | none =>
        have nothing : receive stage line hand stream = { line with stream := stream } := by
          simp [receive, one, staged]
        rw [nothing]
        exact .polls holds moved (by simp [one, staged])
    | some item =>
        cases item with
        | ok out =>
            have taken : receive stage line hand stream = { line with
                stream := stream
                holder := some { hand with batch := hand.batch ++ [out], polling := false } } := by
              simp [receive, one, staged]
            rw [taken]
            exact .takes holds polling moved (by simp [one, staged])
        | error exception =>
            have failed : receive stage line hand stream =
                Line.ends { line with stream := stream } hand (.raised hand.batch exception) := by
              simp [receive, one, staged]
            rw [failed]
            exact .raises holds moved (by simp [one, staged])

theorem line_step_passes {event : LineEvent} (stepped : lineStep stage call line event = some after) :
    Passes stage call line event after := by
  cases event with
  | ask =>
      cases stepped
      exact .asks
  | reach id =>
      simp only [lineStep] at stepped
      split at stepped <;> cases stepped
      rename_i there
      exact .reaches there
  | enter =>
      simp only [lineStep] at stepped
      split at stepped
      · rename_i free queued
        cases stepped
        exact .enters free queued
      · cases stepped
  | check =>
      rcases Option.bind_eq_some_iff.mp stepped with ⟨hand, holds, checked⟩
      split at checked
      · cases checked
      rename_i fresh
      split at checked
      · rename_i due
        cases checked
        simp only [Bool.or_eq_true, Bool.and_eq_true, decide_eq_true_eq, Bool.not_eq_true',
          List.isEmpty_eq_false_iff] at due
        rcases due with full | ⟨some, late⟩
        · refine .gives holds ?_ (.inl full)
          rintro empty
          simp [empty, batchLimit] at full
        · exact .gives holds some (.inr (.inl late))
      · rename_i early
        cases checked
        simp only [Bool.or_eq_true, decide_eq_true_eq, not_or, not_le] at early
        exact .resumes holds (Bool.eq_false_iff.mpr fresh) early.1
  | poll event =>
      have polled : ∃ hand, line.holder = some hand ∧ hand.polling = true ∧
          ∃ stream, batchStep call line.stream event = some stream ∧
            receive stage line hand stream = after := by
        cases event
        case pull => cases stepped
        all_goals
          rcases Option.bind_eq_some_iff.mp stepped with ⟨hand, holds, polled⟩
          split at polled
          · rename_i polling
            exact ⟨hand, holds, polling, Option.map_eq_some_iff.mp polled⟩
          · cases polled
      rcases polled with ⟨hand, holds, polling, stream, moved, rfl⟩
      exact receive_passes holds polling moved
  | finish =>
      rcases Option.bind_eq_some_iff.mp stepped with ⟨hand, holds, ends⟩
      split at ends
      swap
      · cases ends
      rename_i done
      simp only [Bool.and_eq_true, List.isEmpty_iff] at done
      have finished : Finished line.stream := ⟨done.1.2, done.2⟩
      split at ends
      · rename_i none
        cases ends
        exact .stops holds (List.isEmpty_iff.mp none) finished
      · rename_i some
        cases ends
        exact .gives holds (mt List.isEmpty_iff.mpr some) (.inr (.inr finished))
  | pull =>
      rcases Option.map_eq_some_iff.mp stepped with ⟨stream, moved, rfl⟩
      refine .pulls ⟨_, moved⟩ ?_
      simp only [batchStep] at moved
      split at moved <;> cases moved
      rfl
  | cancel dropped =>
      simp only [lineStep] at stepped
      split at stepped
      · rename_i there
        cases stepped
        exact .forgets there
      · split at stepped
        · rename_i queued
          cases stepped
          exact .abandons queued
        · rcases Option.bind_eq_some_iff.mp stepped with ⟨hand, holds, drops⟩
          split at drops <;> cases drops
          exact .drops holds
  | elapse nanos =>
      cases stepped
      exact .elapses

end Inversion

section Invariant

namespace Line

/-- The results that calls have taken and are done with. -/
def taken (line : Line Fault Out Raised) : List (Except Raised Out) :=
  line.endings.flatMap (·.2.contents)

def inHand (line : Line Fault Out Raised) : List (Except Raised Out) :=
  (line.holder.map fun hand => hand.batch.map .ok).getD []

def holders (line : Line Fault Out Raised) : List ℕ := (line.holder.map (·.call)).toList

/-- Who has had the mutex, who has it and who will. -/
def seats (line : Line Fault Out Raised) : List ℕ :=
  (line.endings.filter (·.2.entered)).map (·.1) ++ line.holders ++ line.waiting

end Line

structure Delivers (stage : String × Answer → Option (Except Raised Out)) (call : BatchCall Fault)
    (line : Line Fault Out Raised) : Prop where
  reached : Relation.ReflTransGen (BatchMoves call) {} line.stream
  kept : line.stream.yielded.filterMap stage = line.taken ++ line.inHand
  ordered : line.seats.Sublist line.arrived
  fresh : line.arrived.Nodup
  known : ∀ id ∈ line.arrived, id < line.asked ∧ id ∉ line.spawned
  once : ∀ id, line.spawned.count id + line.waiting.count id + line.holders.count id +
    (line.endings.map (·.1)).count id = if id < line.asked then 1 else 0
  short : ∀ hand, line.holder = some hand → hand.batch.length ≤ batchLimit ∧
    (hand.polling = true → hand.batch.length < batchLimit)
  given : ∀ id batch heldNs, (id, .gave batch heldNs) ∈ line.endings →
    batch ≠ [] ∧ batch.length ≤ batchLimit ∧
      (batch.length = batchLimit ∨ timeoutNs ≤ heldNs ∨ Finished line.stream)
  stopped : ∀ ending ∈ line.endings, ending.2.isStop = true →
    Finished line.stream ∧ line.inHand = []
  last : line.endings.Pairwise fun earlier later =>
    earlier.2.isStop = true → later.2.contents = []

variable {stage : String × Answer → Option (Except Raised Out)} {call : BatchCall Fault}
variable {line after : Line Fault Out Raised} {hand : Hand Out}

/-- A stream that has yielded all it will stays as it is. -/
theorem finished_still {stream next : BatchStream Fault}
    (reached : Relation.ReflTransGen (BatchMoves call) {} stream) (finished : Finished stream)
    (moved : BatchMoves call stream next) : False := by
  rcases finished with ⟨ended, none⟩
  have idle := ((reached_accounts reached).finished ended).1
  rcases batch_moves_cases moved with ⟨_, more, _⟩ | ⟨spawned, _⟩ | ⟨_, ready, _⟩ |
    ⟨_, ready, _⟩ | ⟨ready, _⟩ | ⟨_, _, found, _⟩
  · exact absurd (more.symm.trans ended) (by decide)
  · cases idle.symm.trans spawned
  · cases idle.symm.trans ready
  · cases idle.symm.trans ready
  · cases idle.symm.trans ready
  · simp [none] at found

/-- A call that has the mutex ends, with the stream as it then is. -/
theorem ends_delivers {stream : BatchStream Fault} {ending : Ending Out Raised}
    (delivers : Delivers stage call line) (holds : line.holder = some hand)
    (entered : ending.entered = true)
    (reached : Relation.ReflTransGen (BatchMoves call) {} stream)
    (lasting : Finished line.stream → stream = line.stream)
    (contents : stream.yielded.filterMap stage = line.taken ++ ending.contents)
    (given : ∀ batch heldNs, ending = .gave batch heldNs → batch ≠ [] ∧
      batch.length ≤ batchLimit ∧
        (batch.length = batchLimit ∨ timeoutNs ≤ heldNs ∨ Finished stream))
    (stop : ending.isStop = true → Finished stream) :
    Delivers stage call (Line.ends { line with stream := stream } hand ending) := by
  have seats : (Line.ends { line with stream := stream } hand ending).seats = line.seats := by
    simp [Line.ends, Line.seats, Line.holders, holds, entered]
  have still : Finished line.stream → Finished stream := fun finished =>
    lasting finished ▸ finished
  refine ⟨reached, ?_, ?_, delivers.fresh, delivers.known, ?_, ?_, ?_, ?_, ?_⟩
  · simpa [Line.ends, Line.taken, Line.inHand] using contents
  · rw [seats]
    exact delivers.ordered
  · intro id
    refine Eq.trans ?_ (delivers.once id)
    simp only [Line.holders, holds, Line.ends, Option.map_some, Option.toList_some, Option.map_none,
      Option.toList_none, List.count_nil, List.map_append, List.map_cons, List.map_nil,
      List.count_append]
    omega
  · simp [Line.ends]
  · intro id batch heldNs member
    rcases List.mem_append.mp member with before | here
    · rcases delivers.given id batch heldNs before with ⟨some, size, full | late | finished⟩
      · exact ⟨some, size, .inl full⟩
      · exact ⟨some, size, .inr (.inl late)⟩
      · exact ⟨some, size, .inr (.inr (still finished))⟩
    · cases List.mem_singleton.mp here
      exact given batch heldNs rfl
  · intro other member stops
    refine ⟨?_, rfl⟩
    rcases List.mem_append.mp member with before | here
    · exact still (delivers.stopped other before stops).1
    · cases List.mem_singleton.mp here
      exact stop stops
  · refine List.pairwise_append.mpr ⟨delivers.last, List.pairwise_singleton _ _, ?_⟩
    intro earlier member other here stops
    cases List.mem_singleton.mp here
    -- the stream was at its end and all of it had been taken
    rcases delivers.stopped earlier member stops with ⟨finished, none⟩
    rw [lasting finished, delivers.kept, none, List.append_nil] at contents
    simpa using contents

theorem ask_delivers (delivers : Delivers stage call line) :
    Delivers stage call
      { line with asked := line.asked + 1, spawned := line.spawned ++ [line.asked] } := by
  refine ⟨delivers.reached, delivers.kept, delivers.ordered, delivers.fresh, ?_, ?_,
    delivers.short, delivers.given, delivers.stopped, delivers.last⟩
  · intro id member
    rcases delivers.known id member with ⟨before, gone⟩
    refine ⟨before.trans (Nat.lt_succ_self _), ?_⟩
    simp [gone, before.ne]
  · intro id
    have before := delivers.once id
    simp only [Line.holders, List.count_append, List.count_singleton, beq_iff_eq] at before ⊢
    split_ifs at before ⊢ <;> omega

/-- A task comes to the mutex behind all who came before it. -/
theorem reach_delivers {id : ℕ} (there : id ∈ line.spawned) (delivers : Delivers stage call line) :
    Delivers stage call { line with
      spawned := line.spawned.erase id
      waiting := line.waiting ++ [id]
      arrived := line.arrived ++ [id] } := by
  have one := delivers.once id
  have some := List.count_pos_iff.mpr there
  refine ⟨delivers.reached, delivers.kept, ?_, ?_, ?_, ?_, delivers.short, delivers.given,
    delivers.stopped, delivers.last⟩
  · have seats : Line.seats { line with
        spawned := line.spawned.erase id
        waiting := line.waiting ++ [id]
        arrived := line.arrived ++ [id] } = line.seats ++ [id] := by
      simp [Line.seats, Line.holders]
    rw [seats]
    exact delivers.ordered.append_right [id]
  · refine List.nodup_append.mpr ⟨delivers.fresh, List.nodup_singleton _, ?_⟩
    intro earlier member other here
    rw [List.mem_singleton.mp here]
    rintro rfl
    exact (delivers.known earlier member).2 there
  · intro other member
    rcases List.mem_append.mp member with before | here
    · rcases delivers.known other before with ⟨known, gone⟩
      exact ⟨known, fun still => gone (List.mem_of_mem_erase still)⟩
    · rw [List.mem_singleton.mp here]
      split_ifs at one with known
      · refine ⟨known, ?_⟩
        rw [← List.count_eq_zero, List.count_erase_self]
        omega
      · omega
  · intro other
    refine Eq.trans ?_ (delivers.once other)
    simp only [Line.holders, List.count_append, List.count_erase, List.count_singleton, beq_iff_eq]
    split_ifs with same
    · subst same
      omega
    · omega

theorem enter_delivers {next : ℕ} {rest : List ℕ} (free : line.holder = none)
    (queued : line.waiting = next :: rest) (delivers : Delivers stage call line) :
    Delivers stage call
      { line with waiting := rest, holder := some { call := next, startNs := line.nowNs } } := by
  have seats : Line.seats { line with
      waiting := rest, holder := some { call := next, startNs := line.nowNs } } = line.seats := by
    simp [Line.seats, Line.holders, free, queued]
  have empty : line.inHand = [] := by simp [Line.inHand, free]
  refine ⟨delivers.reached, ?_, ?_, delivers.fresh, delivers.known, ?_, ?_, delivers.given, ?_,
    delivers.last⟩
  · exact delivers.kept.trans (by rw [empty]; rfl)
  · rw [seats]
    exact delivers.ordered
  · intro id
    refine Eq.trans ?_ (delivers.once id)
    simp only [Line.holders, free, queued, Option.map_some, Option.toList_some, Option.map_none,
      Option.toList_none, List.count_nil, List.count_cons]
    omega
  · rintro hand same
    cases same
    exact ⟨Nat.zero_le _, fun polling => by cases polling⟩
  · exact fun ending member stops => ⟨(delivers.stopped ending member stops).1, rfl⟩

/-- The stream moves on and yields nothing to the calls. -/
theorem stream_delivers {stream : BatchStream Fault} (moved : BatchMoves call line.stream stream)
    (quiet : stream.yielded.filterMap stage = line.stream.yielded.filterMap stage)
    (delivers : Delivers stage call line) :
    Delivers stage call { line with stream := stream } where
  reached := delivers.reached.tail moved
  kept := quiet.trans delivers.kept
  ordered := delivers.ordered
  fresh := delivers.fresh
  known := delivers.known
  once := delivers.once
  short := delivers.short
  given id batch heldNs member := by
    rcases delivers.given id batch heldNs member with ⟨some, size, full | late | finished⟩
    · exact ⟨some, size, .inl full⟩
    · exact ⟨some, size, .inr (.inl late)⟩
    · exact (finished_still delivers.reached finished moved).elim
  stopped ending member stops :=
    (finished_still delivers.reached (delivers.stopped ending member stops).1 moved).elim
  last := delivers.last

theorem resume_delivers (holds : line.holder = some hand) (short : hand.batch.length < batchLimit)
    (delivers : Delivers stage call line) :
    Delivers stage call { line with holder := some { hand with polling := true } } := by
  have holders : Line.holders { line with holder := some { hand with polling := true } } =
      line.holders := by
    simp [Line.holders, holds]
  have inHand : Line.inHand { line with holder := some { hand with polling := true } } =
      line.inHand := by
    simp [Line.inHand, holds]
  refine ⟨delivers.reached, ?_, ?_, delivers.fresh, delivers.known, ?_, ?_, delivers.given, ?_,
    delivers.last⟩
  · rw [inHand]
    exact delivers.kept
  · rw [Line.seats, holders]
    exact delivers.ordered
  · rw [holders]
    exact delivers.once
  · rintro next same
    cases same
    exact ⟨short.le, fun _ => short⟩
  · rw [inHand]
    exact delivers.stopped

theorem take_delivers {stream : BatchStream Fault} {out : Out} (holds : line.holder = some hand)
    (polling : hand.polling = true) (moved : BatchMoves call line.stream stream)
    (yields : stream.yielded.filterMap stage = line.stream.yielded.filterMap stage ++ [.ok out])
    (delivers : Delivers stage call line) :
    Delivers stage call { line with
      stream := stream
      holder := some { hand with batch := hand.batch ++ [out], polling := false } } := by
  let next : Hand Out := { hand with batch := hand.batch ++ [out], polling := false }
  have holders : Line.holders { line with stream := stream, holder := some next } =
      line.holders := by
    simp [Line.holders, holds, next]
  have unfinished := fun finished => finished_still delivers.reached finished moved
  refine ⟨delivers.reached.tail moved, ?_, ?_, delivers.fresh, delivers.known, ?_, ?_, ?_, ?_,
    delivers.last⟩
  · simp [yields, delivers.kept, Line.taken, Line.inHand, holds]
  · rw [Line.seats, holders]
    exact delivers.ordered
  · rw [holders]
    exact delivers.once
  · rintro other same
    cases same
    have room := (delivers.short hand holds).2 polling
    exact ⟨by simpa [Nat.succ_le_iff] using room, fun again => by cases again⟩
  · intro id batch heldNs member
    rcases delivers.given id batch heldNs member with ⟨some, size, full | late | finished⟩
    · exact ⟨some, size, .inl full⟩
    · exact ⟨some, size, .inr (.inl late)⟩
    · exact (unfinished finished).elim
  · exact fun ending member stops => (unfinished (delivers.stopped ending member stops).1).elim

/-- A call that has not had the mutex is dropped. -/
theorem dropped_delivers {dropped : ℕ} {spawned waiting : List ℕ}
    (tasks : spawned.Sublist line.spawned) (queue : waiting.Sublist line.waiting)
    (left : ∀ id, spawned.count id + waiting.count id + (if dropped = id then 1 else 0) =
      line.spawned.count id + line.waiting.count id)
    (delivers : Delivers stage call line) :
    Delivers stage call { line with
      spawned := spawned
      waiting := waiting
      endings := line.endings ++ [(dropped, .abandoned)] } := by
  let after : Line Fault Out Raised := { line with
    spawned := spawned, waiting := waiting, endings := line.endings ++ [(dropped, .abandoned)] }
  have fewer : after.seats.Sublist line.seats := by
    have same : after.seats = ((line.endings.filter (·.2.entered)).map (·.1) ++ line.holders) ++
        waiting := by
      simp [after, Line.seats, Line.holders, Ending.entered]
    rw [same]
    exact List.Sublist.append_left queue _
  refine ⟨delivers.reached, ?_, fewer.trans delivers.ordered, delivers.fresh, ?_, ?_,
    delivers.short, ?_, ?_, ?_⟩
  · have taken : after.taken = line.taken := by simp [after, Line.taken, Ending.contents]
    exact taken ▸ delivers.kept
  · intro id member
    rcases delivers.known id member with ⟨known, gone⟩
    exact ⟨known, fun still => gone (tasks.subset still)⟩
  · intro id
    refine Eq.trans ?_ (delivers.once id)
    have moved := left id
    simp only [Line.holders, List.map_append, List.map_cons, List.map_nil, List.count_append,
      List.count_singleton, beq_iff_eq]
    omega
  · intro id batch heldNs member
    rcases List.mem_append.mp member with before | here
    · exact delivers.given id batch heldNs before
    · cases List.mem_singleton.mp here
  · intro ending member stops
    rcases List.mem_append.mp member with before | here
    · exact delivers.stopped ending before stops
    · cases List.mem_singleton.mp here
      cases stops
  · refine List.pairwise_append.mpr ⟨delivers.last, List.pairwise_singleton _ _, ?_⟩
    intro earlier member other here stops
    cases List.mem_singleton.mp here
    rfl

theorem erased_count {ids : List ℕ} {dropped : ℕ} (member : dropped ∈ ids) (id : ℕ) :
    (ids.erase dropped).count id + (if dropped = id then 1 else 0) = ids.count id := by
  have some := List.count_pos_iff.mpr member
  simp only [List.count_erase, beq_iff_eq]
  split_ifs with same
  · subst same
    omega
  · rfl

theorem passes_delivers {event : LineEvent} (passes : Passes stage call line event after)
    (delivers : Delivers stage call line) : Delivers stage call after := by
  have holding : ∀ {hand : Hand Out}, line.holder = some hand →
      line.stream.yielded.filterMap stage = line.taken ++ hand.batch.map .ok := by
    intro hand holds
    rw [delivers.kept]
    simp [Line.inHand, holds]
  cases passes with
  | asks => exact ask_delivers delivers
  | reaches there => exact reach_delivers there delivers
  | enters free queued => exact enter_delivers free queued delivers
  | resumes holds _ short => exact resume_delivers holds short delivers
  | gives holds some due =>
      refine ends_delivers delivers holds rfl delivers.reached (fun _ => rfl) (holding holds) ?_
        (fun stops => by cases stops)
      rintro batch heldNs ⟨⟩
      have short := (delivers.short _ holds).1
      rcases due with full | late | finished
      · exact ⟨some, short, .inl (Nat.le_antisymm short full)⟩
      · exact ⟨some, short, .inr (.inl late)⟩
      · exact ⟨some, short, .inr (.inr finished)⟩
  | polls holds moved quiet => exact stream_delivers moved quiet delivers
  | takes holds polling moved yields => exact take_delivers holds polling moved yields delivers
  | raises holds moved yields =>
      refine ends_delivers delivers holds rfl (delivers.reached.tail moved)
        (fun finished => (finished_still delivers.reached finished moved).elim) ?_
        (fun batch heldNs same => by cases same) (fun stops => by cases stops)
      rw [yields, holding holds, Ending.contents, List.append_assoc]
  | stops holds none finished =>
      refine ends_delivers delivers holds rfl delivers.reached (fun _ => rfl) ?_
        (fun batch heldNs same => by cases same) (fun _ => finished)
      rw [holding holds, none]
      rfl
  | pulls moved quiet => exact stream_delivers moved (by rw [quiet]) delivers
  | forgets there =>
      refine dropped_delivers List.erase_sublist (List.Sublist.refl _) ?_ delivers
      intro id
      have fewer := erased_count there id
      omega
  | abandons queued =>
      refine dropped_delivers (List.Sublist.refl _) List.erase_sublist ?_ delivers
      intro id
      have fewer := erased_count queued id
      omega
  | drops holds =>
      exact ends_delivers delivers holds rfl delivers.reached (fun _ => rfl) (holding holds)
        (fun batch heldNs same => by cases same) (fun stops => by cases stops)
  | elapses =>
      exact ⟨delivers.reached, delivers.kept, delivers.ordered, delivers.fresh, delivers.known,
        delivers.once, delivers.short, delivers.given, delivers.stopped, delivers.last⟩

theorem reached_delivers
    (reached : Relation.ReflTransGen (LineSteps stage call) {} line) :
    Delivers stage call line := by
  refine reachable_invariant (Delivers stage call)
    (fun _ _ kept stepped => passes_delivers (line_step_passes stepped.choose_spec) kept) reached ?_
  refine ⟨.refl, rfl, .slnil, .nil, ?_, ?_, ?_, ?_, ?_, .nil⟩
  · simp
  · simp [Line.holders]
  · simp
  · simp
  · simp

end Invariant

/-- However many calls are made, dropped and interleaved: what the stream has yielded is, in
order and without repetition, what the calls took one after the other; the calls have
the mutex one at a time, in the order in which they came to it, whatever the order they
were made in; a batch is never empty or longer than the limit and is short only after
200 ms or at the end of the stream; and once a call was told to stop, the stream is at its
end and no later call takes anything. -/
theorem batches_deliver_the_stream {stage : String × Answer → Option (Except Raised Out)}
    {call : BatchCall Fault} {line : Line Fault Out Raised}
    (reached : Relation.ReflTransGen (LineSteps stage call) {} line) :
    line.stream.yielded.filterMap stage = line.taken ++ line.inHand ∧
    line.seats.Sublist line.arrived ∧ line.arrived.Nodup ∧
    (∀ id batch heldNs, (id, .gave batch heldNs) ∈ line.endings →
      batch ≠ [] ∧ batch.length ≤ 1000 ∧
        (batch.length = 1000 ∨ 200000000 ≤ heldNs ∨ Finished line.stream)) ∧
    ∀ front id rest, line.endings = front ++ (id, .stopped) :: rest →
      Finished line.stream ∧ line.inHand = [] ∧ ∀ ending ∈ rest, ending.2.contents = [] := by
  have delivers := reached_delivers reached
  refine ⟨delivers.kept, delivers.ordered, delivers.fresh, delivers.given, ?_⟩
  intro front id rest same
  have last := delivers.last
  rcases delivers.stopped (id, .stopped) (by simp [same]) rfl with ⟨finished, none⟩
  rw [same] at last
  have later := (List.pairwise_cons.mp (List.pairwise_append.mp last).2.1).1
  exact ⟨finished, none, fun ending member => later ending member rfl⟩

def oneHost : BatchCall Unit := batchOf sampleResolver [.ok "a.example"] 1 true true

/-- The task of the second of two calls comes first, and has the one result; the other is told
to stop. -/
theorem batches_deliver_the_stream_two :
    ∃ line : Line Unit (String × String × List String) Unit,
      Relation.ReflTransGen (LineSteps (basicItem "A") oneHost) {} line ∧
      line.endings = [(1, .gave [("a.example", "A", ["192.0.2.1"])] 200000000), (0, .stopped)] ∧
      [1, 0].Sublist line.arrived ∧ Finished line.stream := by
  let script : List LineEvent :=
    [.ask, .ask, .reach 1, .reach 0, .enter, .check, .poll .spawn, .pull, .poll .poll,
      .poll (.complete 0), .elapse 200000000, .check, .enter, .check, .poll .spawn, .pull,
      .poll .poll, .finish]
  have played : (script.foldlM (lineStep (basicItem "A") oneHost)
      ({} : Line Unit (String × String × List String) Unit)).map
        (fun line => (line.endings, line.seats)) =
      some ([(1, .gave [("a.example", "A", ["192.0.2.1"])] 200000000), (0, .stopped)], [1, 0]) := by
    rfl
  rcases Option.map_eq_some_iff.mp played with ⟨line, replayed, seen⟩
  rcases Prod.mk.inj seen with ⟨endings, seats⟩
  have reached := replay_reaches replayed
  rcases batches_deliver_the_stream reached with ⟨_, ordered, _, _, last⟩
  have finished := last [(1, .gave [("a.example", "A", ["192.0.2.1"])] 200000000)] 0 [] endings
  exact ⟨line, reached, endings, seats ▸ ordered, finished.1⟩

section Fair

variable {stage : String × Answer → Option (Except Raised Out)} {call : BatchCall Fault}
variable {line after : Line Fault Out Raised}

/-- A call that is there moves, or the stream for it. -/
def Moving : LineEvent → Prop
  | .reach _ | .enter | .check | .poll _ | .finish | .pull => True
  | .ask | .cancel _ | .elapse _ => False

def LineEnabled (stage : String × Answer → Option (Except Raised Out)) (call : BatchCall Fault)
    (line : Line Fault Out Raised) : Prop :=
  ∃ event, Moving event ∧ (lineStep stage call line event).isSome = true

/-- A run with only so many calls in which somebody who can move for ever does: each task is
polled, each lookup completes, and each pull of the iterator. -/
structure FairLine (stage : String × Answer → Option (Except Raised Out)) (call : BatchCall Fault)
    (inputs : ℕ → LineEvent) (states : ℕ → Line Fault Out Raised) : Prop where
  run : Run (lineStep stage call) inputs states
  asked : ∃ since, ∀ time, since ≤ time → inputs time ≠ .ask
  moves : ∀ start, (∀ time, start ≤ time → LineEnabled stage call (states time)) →
    ∃ time, start ≤ time ∧ Moving (inputs time)

def handDebt : Option (Hand Out) → ℕ
  | none => 0
  | some hand => if hand.polling then 1 else 2

/-- Steps left to the calls that are there. -/
def lineDebt (items : List (Except Fault String)) (line : Line Fault Out Raised) : ℕ :=
  3 * stepsLeft items line.stream + 5 * line.spawned.length + 4 * line.waiting.length +
    handDebt line.holder

theorem hand_debt_pos (hand : Hand Out) : 0 < handDebt (some hand) := by
  cases polling : hand.polling <;> simp [handDebt, polling]

theorem passes_pays {items : List (Except Fault String)}
    (finite : call.hosts = finiteSource items) (delivers : Delivers stage call line)
    {event : LineEvent} (passes : Passes stage call line event after) (asked : event ≠ .ask) :
    lineDebt items after ≤ lineDebt items line ∧
      (Moving event → lineDebt items after < lineDebt items line) := by
  have fewer : ∀ {stream : BatchStream Fault}, BatchMoves call line.stream stream →
      stepsLeft items stream < stepsLeft items line.stream :=
    fun moved => batch_moves_fewer finite (reached_accounts delivers.reached) moved
  have strictly : lineDebt items after < lineDebt items line →
      lineDebt items after ≤ lineDebt items line ∧
        (Moving event → lineDebt items after < lineDebt items line) :=
    fun lower => ⟨lower.le, fun _ => lower⟩
  cases passes with
  | asks => exact absurd rfl asked
  | reaches there =>
      apply strictly
      have some := List.length_pos_of_mem there
      simp only [lineDebt, List.length_erase_of_mem there, List.length_append,
        List.length_singleton]
      omega
  | enters free queued =>
      apply strictly
      simp only [lineDebt, free, queued, handDebt, List.length_cons]
      split <;> omega
  | resumes holds fresh =>
      apply strictly
      simp [lineDebt, holds, handDebt, fresh]
  | @gives _ hand holds =>
      apply strictly
      have some := hand_debt_pos hand
      simp only [lineDebt, Line.give, Line.ends, holds, handDebt] at some ⊢
      omega
  | polls holds moved =>
      apply strictly
      have lower := fewer moved
      simp only [lineDebt]
      omega
  | takes holds polling moved =>
      apply strictly
      have lower := fewer moved
      simp only [lineDebt, holds, handDebt, polling]
      simp
      omega
  | @raises _ hand _ _ holds moved =>
      apply strictly
      have lower := fewer moved
      have some := hand_debt_pos hand
      simp only [lineDebt, Line.ends, holds, handDebt] at some ⊢
      omega
  | @stops hand holds =>
      apply strictly
      have some := hand_debt_pos hand
      simp only [lineDebt, Line.ends, holds, handDebt] at some ⊢
      omega
  | pulls moved =>
      apply strictly
      have lower := fewer moved
      simp only [lineDebt]
      omega
  | forgets there =>
      apply strictly
      have some := List.length_pos_of_mem there
      simp only [lineDebt, List.length_erase_of_mem there]
      omega
  | abandons queued =>
      apply strictly
      have some := List.length_pos_of_mem queued
      simp only [lineDebt, List.length_erase_of_mem queued]
      omega
  | @drops _ hand holds =>
      apply strictly
      have some := hand_debt_pos hand
      simp only [lineDebt, Line.ends, holds, handDebt] at some ⊢
      omega
  | elapses => exact ⟨le_rfl, fun moving => moving.elim⟩

theorem poll_enabled {hand : Hand Out} {event : Event} {stream : BatchStream Fault}
    (holds : line.holder = some hand) (polling : hand.polling = true)
    (moved : batchStep call line.stream event = some stream) : LineEnabled stage call line := by
  cases event with
  | pull => exact ⟨.pull, trivial, by simp [lineStep, moved]⟩
  | spawn => exact ⟨.poll .spawn, trivial, by simp [lineStep, holds, polling, moved]⟩
  | poll => exact ⟨.poll .poll, trivial, by simp [lineStep, holds, polling, moved]⟩
  | complete index =>
      exact ⟨.poll (.complete index), trivial, by simp [lineStep, holds, polling, moved]⟩

/-- As long as a call is there, it or the stream can move. -/
theorem line_enabled
    (present : line.spawned ≠ [] ∨ line.waiting ≠ [] ∨ line.holder ≠ none) :
    LineEnabled stage call line := by
  cases holds : line.holder with
  | none =>
      rcases present with there | queued | held
      · rcases List.exists_mem_of_ne_nil _ there with ⟨id, member⟩
        exact ⟨.reach id, trivial, by simp [lineStep, member]⟩
      · rcases List.exists_cons_of_ne_nil queued with ⟨next, rest, queued⟩
        exact ⟨.enter, trivial, by simp [lineStep, holds, queued]⟩
      · exact absurd holds held
  | some hand =>
      cases polling : hand.polling with
      | false =>
          refine ⟨.check, trivial, ?_⟩
          simp only [lineStep, holds, Option.bind_some, polling, Bool.false_eq_true, if_false]
          split <;> rfl
      | true =>
          by_cases finished : Finished line.stream
          · refine ⟨.finish, trivial, ?_⟩
            simp only [lineStep, holds, Option.bind_some, polling, finished.1, finished.2,
              List.isEmpty_nil, Bool.and_self, if_true]
            split <;> rfl
          · rcases unfinished_moves finished with ⟨stream, event, moved⟩
            exact poll_enabled holds polling moved

theorem passes_asked {event : LineEvent} (passes : Passes stage call line event after) :
    line.asked ≤ after.asked := by
  cases passes with
  | asks => exact Nat.le_succ _
  | _ => exact le_rfl

/-- Without new calls nobody comes back. -/
theorem passes_absent {event : LineEvent} (passes : Passes stage call line event after)
    (asked : event ≠ .ask)
    (absent : line.spawned = [] ∧ line.waiting = [] ∧ line.holder = none) :
    after.spawned = [] ∧ after.waiting = [] ∧ after.holder = none := by
  rcases absent with ⟨none, queued, free⟩
  cases passes with
  | asks => exact absurd rfl asked
  | reaches there => simp [none] at there
  | forgets there => simp [none] at there
  | enters _ some => simp [queued] at some
  | resumes holds => simp [free] at holds
  | gives holds => simp [free] at holds
  | polls holds => simp [free] at holds
  | takes holds => simp [free] at holds
  | raises holds => simp [free] at holds
  | stops holds => simp [free] at holds
  | pulls => exact ⟨none, queued, free⟩
  | abandons some => simp [queued] at some
  | drops holds => simp [free] at holds
  | elapses => exact ⟨none, queued, free⟩

variable {inputs : ℕ → LineEvent} {states : ℕ → Line Fault Out Raised}

theorem fair_delivers (fair : FairLine stage call inputs states)
    (start : Delivers stage call (states 0)) (time : ℕ) : Delivers stage call (states time) := by
  induction time with
  | zero => exact start
  | succ time ih => exact passes_delivers (line_step_passes (fair.run time)) ih

theorem fair_line_ends {items : List (Except Fault String)}
    (finite : call.hosts = finiteSource items) (fair : FairLine stage call inputs states)
    (start : Delivers stage call (states 0)) :
    ∃ settled, ∀ time, settled ≤ time →
      (states time).spawned = [] ∧ (states time).waiting = [] ∧ (states time).holder = none := by
  rcases fair.asked with ⟨since, asked⟩
  have pays := fun time later => passes_pays finite (fair_delivers fair start time)
    (line_step_passes (fair.run time)) (asked time later)
  rcases events_end_since (fun time => lineDebt items (states time))
    (fun time => Moving (inputs time)) since (fun time later => (pays time later).1)
    (fun time later => (pays time later).2) with ⟨quiet, begun, still⟩
  have absent : ∃ settled, quiet ≤ settled ∧ (states settled).spawned = [] ∧
      (states settled).waiting = [] ∧ (states settled).holder = none := by
    by_contra present
    push Not at present
    have able : ∀ time, quiet ≤ time → LineEnabled stage call (states time) := by
      intro time later
      apply line_enabled
      by_cases none : (states time).spawned = []
      · by_cases queued : (states time).waiting = []
        · exact .inr (.inr (present time later none queued))
        · exact .inr (.inl queued)
      · exact .inl none
    rcases fair.moves quiet able with ⟨time, later, moves⟩
    exact still time later moves
  rcases absent with ⟨settled, late, absent⟩
  refine ⟨settled, ?_⟩
  intro time later
  induction time, later using Nat.le_induction with
  | base => exact absent
  | succ time later ih =>
      exact passes_absent (line_step_passes (fair.run time))
        (asked time (begun.trans (late.trans later))) ih

end Fair

/-- Over finitely many hosts every call ends, on every schedule that keeps going; and by the
time a call is told to stop, the calls before it have taken one result for every host,
less what the batch skips, be it to hand it over or to lose it. -/
theorem every_anext_ends {stage : String × Answer → Option (Except Raised Out)}
    {call : BatchCall Fault} {items : List (Except Fault String)}
    (finite : call.hosts = finiteSource items) {line : Line Fault Out Raised}
    (reached : Relation.ReflTransGen (LineSteps stage call) {} line) :
    (∀ inputs states, states 0 = line → FairLine stage call inputs states →
      ∃ settled, ∀ time, settled ≤ time → line.asked ≤ (states time).asked ∧
        ∀ id, id < (states time).asked → ∃ ending, (id, ending) ∈ (states time).endings) ∧
    ∀ ending ∈ line.endings, ending.2.isStop = true →
      line.taken.Perm ((call.results (items.filterMap Except.toOption)).filterMap stage) := by
  have delivers := reached_delivers reached
  constructor
  · rintro inputs states rfl fair
    rcases fair_line_ends finite fair delivers with ⟨settled, absent⟩
    refine ⟨settled, ?_⟩
    intro time later
    have grows := monotone_nat_of_le_succ (f := fun time => (states time).asked)
      (fun time => passes_asked (line_step_passes (fair.run time))) (Nat.zero_le time)
    refine ⟨grows, ?_⟩
    intro id asked
    rcases absent time later with ⟨none, queued, free⟩
    have once := (fair_delivers fair delivers time).once id
    simp only [Line.holders, none, queued, free, Option.map_none, Option.toList_none,
      List.count_nil, asked, if_true] at once
    have member : id ∈ (states time).endings.map (·.1) := List.count_pos_iff.mp (by omega)
    rcases List.mem_map.mp member with ⟨⟨_, ending⟩, inside, rfl⟩
    exact ⟨ending, inside⟩
  · intro ending member stops
    rcases delivers.stopped ending member stops with ⟨finished, none⟩
    have kept := delivers.kept
    rw [none, List.append_nil] at kept
    rw [← kept]
    exact (finished_yields finite delivers.reached finished).filterMap stage

section Rests

variable {stage : String × Answer → Option (Except Raised Out)} {call : BatchCall Fault}
variable {last : Line Fault Out Raised}

def Line.rests (line : Line Fault Out Raised) : Bool :=
  line.spawned.isEmpty && line.waiting.isEmpty && line.holder.isNone &&
    match line.stream.pending with
    | .spawned => false
    | _ => true

theorem rests_not_enabled (rests : last.rests = true) : ¬ LineEnabled stage call last := by
  simp only [Line.rests, Bool.and_eq_true, List.isEmpty_iff, Option.isNone_iff_eq_none] at rests
  rcases rests with ⟨⟨⟨none, queued⟩, free⟩, quiet⟩
  rintro ⟨event, moving, steps⟩
  cases event with
  | reach id => simp [lineStep, none] at steps
  | enter => simp [lineStep, free, queued] at steps
  | check => simp [lineStep, free] at steps
  | poll event => cases event <;> simp [lineStep, free] at steps
  | finish => simp [lineStep, free] at steps
  | pull =>
      simp only [lineStep, batchStep, Option.isSome_map] at steps
      split at steps
      · rename_i spawned
        simp [spawned] at quiet
      · cases steps
  | ask => exact moving
  | cancel dropped => exact moving
  | elapse nanos => exact moving

/-- Any script that leaves no call behind is the start of a fair run. -/
theorem fair_line_after_script {first : Line Fault Out Raised} {script : List LineEvent}
    (asked : .ask ∉ script)
    (played : script.foldlM (lineStep stage call) first = some last) (rests : last.rests = true) :
    ∃ inputs states, states 0 = first ∧ FairLine stage call inputs states := by
  have waits : Run (lineStep stage call) (fun _ => .elapse 0) (fun _ => last) := fun _ => rfl
  rcases run_after_replay (fun _ => last) played waits with
    ⟨inputs, states, start, run, drawn, ends⟩
  refine ⟨inputs, states, start, run, ⟨0, ?_⟩, ?_⟩
  · intro time _ asks
    rcases drawn time with inside | ⟨_, waiting⟩
    · exact asked (asks ▸ inside)
    · rw [asks] at waiting
      cases waiting
  · intro since able
    have stuck : ¬ LineEnabled stage call (states (script.length + since)) := by
      rw [ends since]
      exact rests_not_enabled rests
    exact absurd (able _ (Nat.le_add_left since script.length)) stuck

end Rests

/-- The texts of the records in place of their serialisation. -/
def sampleItem : String × Answer → Option (Except Unit (String × List String)) :=
  fullItem (fun response => .ok (answerStrings response)) fun _ => .ok []

/-- Two calls are made, and both end. -/
theorem every_anext_ends_two :
    ∃ (inputs : ℕ → LineEvent) (states : ℕ → Line Unit (String × List String) Unit),
      (states 0).spawned = [0, 1] ∧ FairLine sampleItem oneHost inputs states ∧
      ∃ settled, ∃ ending, (1, ending) ∈ (states settled).endings := by
  let begun : List LineEvent := [.ask, .ask]
  let script : List LineEvent :=
    [.reach 1, .reach 0, .enter, .check, .poll .spawn, .pull, .poll .poll, .poll (.complete 0),
      .elapse 200000000, .check, .enter, .check, .poll .spawn, .pull, .poll .poll, .finish]
  have ready : (begun.foldlM (lineStep sampleItem oneHost)
      ({} : Line Unit (String × List String) Unit)).map (fun line =>
        (line.spawned, line.asked,
          (script.foldlM (lineStep sampleItem oneHost) line).map Line.rests)) =
      some ([0, 1], 2, some true) := by
    rfl
  rcases Option.map_eq_some_iff.mp ready with ⟨line, replayed, seen⟩
  simp only [Prod.mk.injEq] at seen
  rcases seen with ⟨spawned, asked, ended⟩
  rcases Option.map_eq_some_iff.mp ended with ⟨last, played, rests⟩
  rcases fair_line_after_script (by simp [script]) played rests with ⟨inputs, states, start, fair⟩
  rcases (every_anext_ends rfl (replay_reaches replayed)).1 inputs states start fair with
    ⟨settled, ends⟩
  rcases ends settled le_rfl with ⟨known, all⟩
  exact ⟨inputs, states, start ▸ spawned, fair, settled, all 1 (by omega)⟩

end BlastDns.PyBatches
