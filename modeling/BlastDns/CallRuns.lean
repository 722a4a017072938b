import BlastDns.Calls

/-!
What each of many calls makes of what it hears, and what the calls together leave in
the two counters of the client. However the calls are interleaved, each of them
returns what the plain loop returns on the outcomes it was given, and each update
of the counters is that of a call that has ended, once, or of one that is between
its two updates.
-/

namespace BlastDns.Calls

open Accounting Cache Client Config Controller Crew GlobalCap Lru NetText Politeness Resolve
open RetryLoop Runs Worker

section Loop

def Declined (heard : List Attempt) : Prop := ∀ sent ∈ heard, conclusive sent = false

/-- The last of these attempts, and no earlier one, ends the call. -/
def Stopped (attempts : ℕ) (heard : List Attempt) (result : Answer) : Prop :=
  ∃ earlier last, heard = earlier ++ [last] ∧ last.outcome = result ∧ Declined earlier ∧
    earlier.length < attempts ∧ (conclusive last = true ∨ earlier.length + 1 = attempts)

/-- A call has heard what its place in the code requires. -/
def Follows (attempts : ℕ) (caller : Caller) : Prop :=
  match caller.progress with
  | .ensuring | .looking => caller.heard = []
  | .offering attempt | .awaiting attempt _ =>
      caller.heard.length = attempt ∧ attempt < attempts ∧ Declined caller.heard
  | .judging attempt result =>
      ∃ earlier, caller.heard = earlier ++ [.answered result] ∧ earlier.length = attempt ∧
        attempt < attempts ∧ Declined earlier
  | .storing response | .completing response => Stopped attempts caller.heard (.ok response)
  | .conceding err | .failing err =>
      Stopped attempts caller.heard (.error err) ∧ err.isCongestionEvidence = true
  | .returned result =>
      (caller.heard = [] ∧ ∃ response, result = .ok response) ∨
        Stopped attempts caller.heard result
  | .cancelled => caller.heard.length < attempts
  | .panicked => ∃ response, Stopped attempts caller.heard (.ok response)

variable {config : BlastDNSConfig}

theorem declined_append {heard : List Attempt} {sent : Attempt} (declined : Declined heard)
    (inconclusive : conclusive sent = false) : Declined (heard ++ [sent]) := by
  intro other member
  rcases List.mem_append.mp member with before | last
  · exact declined other before
  · rw [List.mem_singleton.mp last]
    exact inconclusive

theorem judge_cases (config : BlastDNSConfig) (attempt : ℕ) (result : Answer) :
    judge config attempt result = .offering (attempt + 1) ∨
    (∃ response, result = .ok response ∧ judge config attempt result = .storing response) ∨
    (∃ err, result = .error err ∧ err.isCongestionEvidence = true ∧
      judge config attempt result = .conceding err) ∨
    ∃ err, result = .error err ∧ err.isCongestionEvidence = false ∧
      judge config attempt result = .returned (.error err) := by
  cases result with
  | ok response =>
      simp only [judge]
      split
      · exact .inl rfl
      · exact .inr (.inl ⟨response, rfl, rfl⟩)
  | error err =>
      simp only [judge]
      split
      · cases evident : err.isCongestionEvidence with
        | true => exact .inr (.inr (.inl ⟨err, rfl, evident, rfl⟩))
        | false => exact .inr (.inr (.inr ⟨err, rfl, evident, rfl⟩))
      · exact .inl rfl

theorem judge_follows {caller : Caller} {attempt : ℕ} {result : Answer}
    (place : caller.progress = .judging attempt result)
    (follows : Follows (attemptsFor config.maxRetries) caller) :
    Follows (attemptsFor config.maxRetries) (caller.goes (judge config attempt result)) := by
  rw [Follows, place] at follows
  rcases follows with ⟨earlier, heard, length, within, declined⟩
  have stops : ∀ {answer : Answer}, result = answer →
      (conclusive (.answered result) = true ∨ attempt + 1 = attemptsFor config.maxRetries) →
      Stopped (attemptsFor config.maxRetries) caller.heard answer := by
    intro answer same ends
    exact ⟨earlier, .answered result, heard, same, declined, length ▸ within, length ▸ ends⟩
  have resumes : conclusive (.answered result) = false →
      attempt + 1 < attemptsFor config.maxRetries →
      Follows (attemptsFor config.maxRetries) (caller.goes (.offering (attempt + 1))) := by
    intro inconclusive more
    refine ⟨?_, more, ?_⟩
    · simp [Caller.goes, heard, length]
    · rw [Caller.goes, heard]
      exact declined_append declined inconclusive
  cases result with
  | ok response =>
      simp only [judge]
      split
      · rename_i declines
        simp only [Bool.and_eq_true, Bool.not_eq_true', decide_eq_true_eq] at declines
        exact resumes declines.1 declines.2
      · rename_i settles
        simp only [Bool.and_eq_true, Bool.not_eq_true', decide_eq_true_eq, not_and] at settles
        apply stops rfl
        cases answers : answersTheQuestion response with
        | true => exact .inl answers
        | false =>
            have last := settles answers
            exact .inr (by omega)
  | error err =>
      simp only [judge]
      split
      · rename_i final
        simp only [Bool.or_eq_true, decide_eq_true_eq] at final
        have stopped : Stopped (attemptsFor config.maxRetries) caller.heard (.error err) :=
          stops rfl final.symm
        split
        · rename_i evidence
          exact ⟨stopped, evidence⟩
        · exact .inr stopped
      · rename_i again
        simp only [Bool.or_eq_true, decide_eq_true_eq, not_or, Bool.not_eq_true] at again
        exact resumes again.2 (by omega)

end Loop

section Steps

variable {Name : Type} [DecidableEq Name] {lru : LruCache (Name × ℕ) CacheEntry} {n : ℕ}
variable {Wire : Type} {fromAscii : String → Except ProtoError Wire} {config : BlastDNSConfig}
variable {parse : String → Option Name} {latest : ℕ}
variable {floor after : Floor n lru} {caller moved : Caller}

theorem moves_follows (moves : Moves fromAscii config parse latest floor caller after moved)
    (follows : Follows (attemptsFor config.maxRetries) caller) :
    Follows (attemptsFor config.maxRetries) moved := by
  have some := attempts_for_pos config.maxRetries
  cases moves with
  | judged place => exact judge_follows place follows
  | cancels place =>
      rcases place with place | ⟨attempt, place⟩ | ⟨attempt, channel, place⟩ <;>
        rw [Follows, place] at follows
      · exact (congrArg List.length follows).trans_lt some
      · exact follows.1.trans_lt follows.2.1
      · exact follows.1.trans_lt follows.2.1
  | ensured place =>
      rw [Follows, place] at follows
      exact follows
  | hit place =>
      rw [Follows, place] at follows
      exact .inl ⟨follows, _, rfl⟩
  | missed place =>
      rw [Follows, place] at follows
      refine ⟨congrArg List.length follows, some, ?_⟩
      simp [Declined, Caller.goes, follows]
  | exhausted place past =>
      rw [Follows, place] at follows
      exact absurd follows.2.1 past
  | refused place =>
      rw [Follows, place] at follows
      rcases follows with ⟨length, within, declined⟩
      exact .inr ⟨caller.heard, .closed, rfl, rfl, declined, length ▸ within, .inl rfl⟩
  | offered place =>
      rw [Follows, place] at follows
      exact follows
  | heard place =>
      rw [Follows, place] at follows
      rcases follows with ⟨length, within, declined⟩
      exact ⟨caller.heard, rfl, length, within, declined⟩
  | stored place =>
      rw [Follows, place] at follows
      exact follows
  | panics place =>
      rw [Follows, place] at follows
      exact ⟨_, follows⟩
  | completes place =>
      rw [Follows, place] at follows
      exact .inr follows
  | concedes place =>
      rw [Follows, place] at follows
      exact follows
  | fails place =>
      rw [Follows, place] at follows
      exact .inr follows.1

def DeskSteps (fromAscii : String → Except ProtoError Wire) (config : BlastDNSConfig)
    (parse : String → Option Name) (latest : ℕ) (before after : Desk n lru) : Prop :=
  ∃ event, deskStep fromAscii config parse latest before event = some after

variable {desk later : Desk n lru}

theorem desk_step_system {action : Action n}
    (stepped : deskStep fromAscii config parse latest desk (.system action) = some later) :
    (∀ handle query, action ≠ .submit handle query) ∧
    ∃ system, systemStep fromAscii config desk.shared.system action = some system ∧
      later = { desk with shared := { desk.shared with
        system := system
        exchanges := desk.shared.exchanges ++ noted desk.shared.system action } } := by
  cases action
  case submit => cases stepped
  all_goals
    rcases Option.map_eq_some_iff.mp stepped with ⟨system, moved, same⟩
    exact ⟨by simp, system, moved, same.symm⟩

theorem desk_step_cases (stepped : DeskSteps fromAscii config parse latest desk later) :
    (∃ handle host recordType, handle < desk.shared.system.handles.length ∧
      later = hire desk [{ handle := handle, host := host, recordType := recordType }]) ∨
    (∃ index label, act (callStep fromAscii config parse latest) desk index label = some later) ∨
    ∃ action system, (∀ handle query, action ≠ .submit handle query) ∧
      systemStep fromAscii config desk.shared.system action = some system ∧
      later = { desk with shared := { desk.shared with
        system := system
        exchanges := desk.shared.exchanges ++ noted desk.shared.system action } } := by
  rcases stepped with ⟨event, stepped⟩
  cases event with
  | arrive handle host recordType =>
      simp only [deskStep] at stepped
      split at stepped <;> cases stepped
      rename_i inside
      exact .inl ⟨handle, host, recordType, inside, rfl⟩
  | call index label => exact .inr (.inl ⟨index, label, stepped⟩)
  | system action =>
      rcases desk_step_system stepped with ⟨free, system, moved, same⟩
      exact .inr (.inr ⟨action, system, free, moved, same⟩)

theorem moves_system
    (moves : Moves fromAscii config parse latest floor caller after moved) :
    after.system = floor.system ∨ ∃ handle query,
      systemStep fromAscii config floor.system (.submit handle query) = some after.system := by
  cases moves with
  | offered _ _ _ submitted => exact .inr ⟨_, _, submitted⟩
  | _ => exact .inl rfl

/-- Under a step of the desk the system stands still or takes a step of its own. -/
theorem desk_step_beneath {event : DeskEvent n}
    (stepped : deskStep fromAscii config parse latest desk event = some later) :
    later.shared.system = desk.shared.system ∨
      ∃ action, systemStep fromAscii config desk.shared.system action = some later.shared.system ∧
        (event = .system action ∨ ∃ handle query, action = .submit handle query) := by
  cases event with
  | arrive handle host recordType =>
      simp only [deskStep] at stepped
      split at stepped <;> cases stepped
      exact .inl rfl
  | call index label =>
      rcases act_some stepped with ⟨caller, floor, moved, _, moves, rfl⟩
      rcases moves_system (call_step_moves moves) with same | ⟨handle, query, submitted⟩
      · exact .inl same
      · exact .inr ⟨_, submitted, .inr ⟨handle, query, rfl⟩⟩
  | system action =>
      rcases desk_step_system stepped with ⟨_, system, moved, rfl⟩
      exact .inr ⟨action, moved, .inl rfl⟩

theorem desk_step_follows (stepped : DeskSteps fromAscii config parse latest desk later)
    (follows : ∀ caller ∈ desk.procs, Follows (attemptsFor config.maxRetries) caller) :
    ∀ caller ∈ later.procs, Follows (attemptsFor config.maxRetries) caller := by
  rcases desk_step_cases stepped with ⟨_, _, _, _, rfl⟩ | ⟨index, label, acted⟩ |
    ⟨_, _, _, _, rfl⟩
  · intro caller member
    rcases List.mem_append.mp member with before | fresh
    · exact follows caller before
    · rw [List.mem_singleton.mp fresh]
      rfl
  · exact act_forall (fun _ caller => Follows (attemptsFor config.maxRetries) caller)
      (fun _ _ _ _ _ stepped => moves_follows (call_step_moves stepped)) (fun _ _ _ _ _ _ _ kept => kept) acted
      follows
  · exact follows

end Steps

section Refinement

variable {Name : Type} [DecidableEq Name] {lru : LruCache (Name × ℕ) CacheEntry}

/-- The call that is given the outcomes this one heard. -/
def Caller.call (caller : Caller) : Call where
  host := caller.host
  recordType := caller.recordType
  askedAt := 0
  attempts attempt := caller.heard.getD attempt .dropped
  settledAt _ := 0

theorem stopped_stops {attempts : ℕ} {caller : Caller} {result : Answer}
    (stopped : Stopped attempts caller.heard result) :
    ∃ stop, caller.heard.length = stop + 1 ∧ StopsAt caller.call attempts stop ∧
      (caller.call.attempts stop).outcome = result := by
  rcases stopped with ⟨earlier, last, heard, outcome, declined, within, ends⟩
  have here : caller.call.attempts earlier.length = last := by
    simp [Caller.call, heard]
  refine ⟨earlier.length, by simp [heard], ⟨within, ?_, here ▸ ends⟩, here ▸ outcome⟩
  intro attempt before
  have sent : caller.call.attempts attempt = earlier[attempt] := by
    simp [Caller.call, heard, List.getElem?_append_left before, List.getElem?_eq_getElem before]
  rw [sent]
  exact declined _ (List.getElem_mem before)

/-- On a client without a cache the plain loop comes to the same result. -/
theorem stopped_resolves (parse : String → Option Name) (latest maxRetries : ℕ)
    {caller : Caller} {result : Answer}
    (stopped : Stopped (attemptsFor maxRetries) caller.heard result) :
    ∃ state : ClientState lru, resolveFull parse latest maxRetries { cache := none } caller.call =
        some (result, state) ∧
      state.offered = List.replicate caller.heard.length caller.query := by
  rcases stopped_stops stopped with ⟨stop, length, stops, outcome⟩
  have missed : ClientState.lookup parse ({ cache := none } : ClientState lru) caller.call.query
      caller.call.askedAt = (none, { cache := none }) := rfl
  have looped : resolveLoop parse latest caller.call.query caller.call (attemptsFor maxRetries)
      (attemptsFor maxRetries) ({ cache := none } : ClientState lru) = _ :=
    loop_stops parse latest stops (Nat.zero_add _) (Nat.zero_le stop)
  simp only [resolveFull, missed, looped, outcome, length]
  cases result with
  | ok response => exact ⟨_, rfl, rfl⟩
  | error err =>
      refine ⟨_, rfl, ?_⟩
      dsimp only
      split <;> rfl

end Refinement

section Ledger

variable {Name : Type} [DecidableEq Name] {lru : LruCache (Name × ℕ) CacheEntry} {n : ℕ}

/-- The call has counted itself as finished: from an answer of its own, or lost. -/
def countsCompleted (caller : Caller) : Bool :=
  match caller.progress with
  | .failing _ => true
  | .returned (.ok _) => !caller.heard.isEmpty
  | .returned (.error err) => err.isCongestionEvidence
  | _ => false

def countsFailed (caller : Caller) : Bool :=
  match caller.progress with
  | .returned (.error err) => err.isCongestionEvidence
  | _ => false

structure Counted (desk : Desk n lru) : Prop where
  completed : desk.shared.client.outcomes.completed = desk.procs.countP countsCompleted
  failed : desk.shared.client.outcomes.failed = desk.procs.countP countsFailed

variable {Wire : Type} {fromAscii : String → Except ProtoError Wire} {config : BlastDNSConfig}
variable {parse : String → Option Name} {latest : ℕ}
variable {floor after : Floor n lru} {caller moved : Caller}

theorem lookup_keeps {state client : ClientState lru} {query : QuerySpec} {now : ℕ}
    {hit : Option DnsResponse} (looked : state.lookup parse query now = (hit, client)) :
    client.outcomes = state.outcomes ∧ client.offered = state.offered := by
  rcases lookup_cases parse state query now with ⟨same, _⟩ | ⟨_, _, _, _, same⟩
  · cases same.symm.trans looked
    exact ⟨rfl, rfl⟩
  · cases same.symm.trans looked
    exact ⟨rfl, rfl⟩

theorem store_keeps {state stored : ClientState lru} {query : QuerySpec} {response : DnsResponse}
    {now : ℕ} (kept : state.store parse latest query response now = some stored) :
    stored.outcomes = state.outcomes ∧ stored.offered = state.offered := by
  rcases store_cases parse latest state query response now with ⟨same, _⟩ | ⟨_, _, _, _, same⟩
  · cases same.symm.trans kept
    exact ⟨rfl, rfl⟩
  · rw [same] at kept
    rcases Option.map_eq_some_iff.mp kept with ⟨_, _, rfl⟩
    exact ⟨rfl, rfl⟩

/-- A step moves each counter by as much as its own call changes kind. -/
theorem moves_counts (moves : Moves fromAscii config parse latest floor caller after moved)
    (follows : Follows (attemptsFor config.maxRetries) caller) :
    after.client.outcomes.completed + (countsCompleted caller).toNat =
        floor.client.outcomes.completed + (countsCompleted moved).toNat ∧
      after.client.outcomes.failed + (countsFailed caller).toNat =
        floor.client.outcomes.failed + (countsFailed moved).toNat := by
  cases moves with
  | ensured place => simp [countsCompleted, countsFailed, place, Caller.goes]
  | hit place looked =>
      rw [Follows, place] at follows
      have heard : caller.heard = [] := follows
      simp [countsCompleted, countsFailed, place, Caller.goes, heard, (lookup_keeps looked).1]
  | missed place looked =>
      simp [countsCompleted, countsFailed, place, Caller.goes, (lookup_keeps looked).1]
  | exhausted place past =>
      rw [Follows, place] at follows
      exact absurd follows.2.1 past
  | refused place =>
      simp [countsCompleted, countsFailed, place, Caller.hears, ClientState.offer,
        BlastDNSError.isCongestionEvidence]
  | offered place => simp [countsCompleted, countsFailed, place, Caller.goes, ClientState.offer]
  | heard place => simp [countsCompleted, countsFailed, place, Caller.hears]
  | @judged attempt result place =>
      rcases judge_cases config attempt result with again | ⟨response, _, stores⟩ |
        ⟨err, _, _, concedes⟩ | ⟨err, _, silent, returns⟩
      · simp [countsCompleted, countsFailed, place, Caller.goes, again]
      · simp [countsCompleted, countsFailed, place, Caller.goes, stores]
      · simp [countsCompleted, countsFailed, place, Caller.goes, concedes]
      · simp [countsCompleted, countsFailed, place, Caller.goes, returns, silent]
  | stored place kept =>
      have same := (store_keeps kept).1
      simp [countsCompleted, countsFailed, place, Caller.goes, same]
  | panics place => simp [countsCompleted, countsFailed, place, Caller.goes]
  | completes place =>
      rw [Follows, place] at follows
      rcases follows with ⟨earlier, last, heard, _⟩
      have some : caller.heard.isEmpty = false := by simp [heard]
      simp [countsCompleted, countsFailed, place, Caller.goes, ClientState.completed, some]
  | concedes place =>
      simp [countsCompleted, countsFailed, place, Caller.goes, ClientState.completed]
  | fails place =>
      rw [Follows, place] at follows
      simp [countsCompleted, countsFailed, place, Caller.goes, ClientState.failed, follows.2]
  | cancels place =>
      rcases place with place | ⟨attempt, place⟩ | ⟨attempt, channel, place⟩ <;>
        simp [countsCompleted, countsFailed, place, Caller.goes]

variable {desk later : Desk n lru}

theorem act_counted {index : ℕ} {label : CallLabel}
    (acted : act (callStep fromAscii config parse latest) desk index label = some later)
    (follows : ∀ caller ∈ desk.procs, Follows (attemptsFor config.maxRetries) caller)
    (counted : Counted desk) : Counted later := by
  rcases act_headcount acted with ⟨caller, moved, found, stepped, counts⟩
  have moves := moves_counts (call_step_moves stepped)
    (follows caller (List.mem_of_getElem? found))
  have completed := counts countsCompleted
  have failed := counts countsFailed
  have before := counted.completed
  have lost := counted.failed
  simp only [headcount] at completed failed
  constructor
  · cases old : countsCompleted caller <;> cases new : countsCompleted moved <;>
      simp [old, new] at moves completed <;> omega
  · cases old : countsFailed caller <;> cases new : countsFailed moved <;>
      simp [old, new] at moves failed <;> omega

theorem desk_step_counted (stepped : DeskSteps fromAscii config parse latest desk later)
    (follows : ∀ caller ∈ desk.procs, Follows (attemptsFor config.maxRetries) caller)
    (counted : Counted desk) : Counted later := by
  rcases desk_step_cases stepped with ⟨_, _, _, _, rfl⟩ | ⟨index, label, acted⟩ |
    ⟨_, _, _, _, rfl⟩
  · constructor
    · rw [hire, List.countP_append]
      exact counted.completed
    · rw [hire, List.countP_append]
      exact counted.failed
  · exact act_counted acted follows counted
  · exact ⟨counted.completed, counted.failed⟩

end Ledger

section Reached

variable {Name : Type} [DecidableEq Name] {lru : LruCache (Name × ℕ) CacheEntry}
variable {Wire : Type} {fromAscii : String → Except ProtoError Wire}
variable {parse : String → Option Name} {latest : ℕ}
variable {client : BlastDNSClient} {desk : Desk client.resolvers.length lru}

theorem reached_counted
    (reached : Relation.ReflTransGen (DeskSteps fromAscii client.config parse latest)
      (newDesk lru client) desk) :
    (∀ caller ∈ desk.procs, Follows (attemptsFor client.config.maxRetries) caller) ∧
      Counted desk := by
  apply reachable_invariant (fun desk : Desk client.resolvers.length lru =>
    (∀ caller ∈ desk.procs, Follows (attemptsFor client.config.maxRetries) caller) ∧
      Counted desk) _ reached
  · exact ⟨by simp [newDesk], rfl, rfl⟩
  · rintro before after ⟨follows, counted⟩ stepped
    exact ⟨desk_step_follows stepped follows, desk_step_counted stepped follows counted⟩

/-- A call came back with an answer that one of its own attempts got. -/
def answered (caller : Caller) : Bool :=
  match caller.progress with
  | .returned (.ok _) => !caller.heard.isEmpty
  | _ => false

/-- A call came back with an error that says something about the path. -/
def lost (caller : Caller) : Bool :=
  match caller.progress with
  | .returned (.error err) => err.isCongestionEvidence
  | _ => false

def betweenCounters (caller : Caller) : Bool :=
  match caller.progress with
  | .failing _ => true
  | _ => false

theorem completed_split (callers : List Caller) :
    callers.countP countsCompleted =
      callers.countP answered + callers.countP lost + callers.countP betweenCounters := by
  induction callers with
  | nil => rfl
  | cons caller rest ih =>
      have kinds : (countsCompleted caller).toNat = (answered caller).toNat +
          (lost caller).toNat + (betweenCounters caller).toNat := by
        simp only [countsCompleted, answered, lost, betweenCounters]
        cases caller.progress with
        | returned result => cases result <;> simp
        | _ => rfl
      simp only [List.countP_cons, ih]
      cases one : countsCompleted caller <;> cases two : answered caller <;>
        cases three : lost caller <;> cases four : betweenCounters caller <;>
        simp [one, two, three, four] at kinds ⊢ <;> omega

/-- Two calls for one name: the first asks the network, the second the cache. -/
def twoCalls : List (DeskEvent 1) :=
  [.system (.startInit 0), .system (.finishInit 0), .arrive 0 "a.example" 1] ++
    List.replicate 3 (.call 0 .proceed) ++ List.replicate 10 (.system (.worker 0 .proceed)) ++
    .system (.worker 0 (.answer (.ok shortAnswer))) ::
      List.replicate 3 (.system (.worker 0 .proceed)) ++ List.replicate 4 (.call 0 .proceed) ++
    .arrive 0 "a.example" 1 :: List.replicate 2 (.call 1 .proceed)

def resultOf (caller : Caller) : Option DnsResponse × ℕ :=
  match caller.progress with
  | .returned (.ok response) => (some response, caller.heard.length)
  | _ => (none, caller.heard.length)

theorem result_of_some {caller : Caller} {response : DnsResponse} {attempts : ℕ}
    (result : resultOf caller = (some response, attempts)) :
    caller.progress = .returned (.ok response) ∧ caller.heard.length = attempts := by
  unfold resultOf at result
  split at result
  · rename_i place
    cases result
    exact ⟨place, rfl⟩
  · cases result

theorem two_calls_reached :
    ∃ desk : Desk 1 (listed : LruCache (String × ℕ) CacheEntry),
      Relation.ReflTransGen (DeskSteps anyName narrowConfig some (10 ^ 30))
        (newDesk listed narrowClient) desk ∧
      ∃ first second, desk.procs = [first, second] ∧
        first.progress = .returned (.ok shortAnswer) ∧ first.heard.length = 1 ∧
        second.progress = .returned (.ok shortAnswer) ∧ second.heard.length = 0 := by
  have done : (twoCalls.foldlM (deskStep anyName narrowConfig some (10 ^ 30))
      (newDesk (listed : LruCache (String × ℕ) CacheEntry) narrowClient)).map
        (fun desk => desk.procs.map resultOf) =
      some [(some shortAnswer, 1), (some shortAnswer, 0)] := by
    decide
  rcases Option.map_eq_some_iff.mp done with ⟨desk, replayed, results⟩
  rcases List.map_eq_cons_iff.mp results with ⟨first, rest, procs, one, others⟩
  rcases List.map_eq_cons_iff.mp others with ⟨second, none, also, two, nobody⟩
  cases List.map_eq_nil_iff.mp nobody
  refine ⟨desk, replay_reaches replayed, first, second, procs.trans (also ▸ rfl), ?_⟩
  exact ⟨(result_of_some one).1, (result_of_some one).2, (result_of_some two).1,
    (result_of_some two).2⟩

/-- In every interleaving of calls, cancelled ones included, the counters the controller
reads are exact: a finished call is counted once, a lost one in both, and only a call
between its two updates is in one of them. -/
theorem outcomes_are_exact
    (reached : Relation.ReflTransGen (DeskSteps fromAscii client.config parse latest)
      (newDesk lru client) desk) :
    desk.shared.client.outcomes.completed = desk.procs.countP answered + desk.procs.countP lost +
      desk.procs.countP betweenCounters ∧
    desk.shared.client.outcomes.failed = desk.procs.countP lost := by
  have counted := (reached_counted reached).2
  exact ⟨counted.completed.trans (completed_split _), counted.failed⟩

/-- However many calls run beside it, a call that has come back took its result from the
cache before any attempt, or has made no more attempts than the plain loop makes on the
same outcomes and returns what that returns. -/
theorem call_returns_as_alone
    (reached : Relation.ReflTransGen (DeskSteps fromAscii client.config parse latest)
      (newDesk lru client) desk)
    {caller : Caller} (member : caller ∈ desk.procs) {result : Answer}
    (returned : caller.progress = .returned result) :
    (caller.heard = [] ∧ ∃ response, result = .ok response) ∨
    ∃ state : ClientState lru,
      resolveFull parse latest client.config.maxRetries { cache := none } caller.call =
        some (result, state) ∧
      state.offered = List.replicate caller.heard.length caller.query := by
  have follows := (reached_counted reached).1 caller member
  rw [Follows, returned] at follows
  rcases follows with cached | stopped
  · exact .inl cached
  · exact .inr (stopped_resolves parse latest client.config.maxRetries stopped)

theorem call_returns_as_alone_first :
    ∃ caller : Caller, caller.progress = .returned (.ok shortAnswer) ∧ caller.heard ≠ [] ∧
      ∃ state : ClientState (listed : LruCache (String × ℕ) CacheEntry),
        resolveFull some (10 ^ 30) narrowConfig.maxRetries { cache := none } caller.call =
          some (.ok shortAnswer, state) := by
  rcases two_calls_reached with ⟨desk, reached, first, second, procs, returned, once, _⟩
  have some : first.heard ≠ [] := List.ne_nil_of_length_pos (by omega)
  have member : first ∈ desk.procs := by simp [procs]
  refine ⟨first, returned, some, ?_⟩
  rcases call_returns_as_alone reached member returned with ⟨none, _⟩ | ⟨state, resolved, _⟩
  · exact absurd none some
  · exact ⟨state, resolved⟩

/-- Two calls came back, and one of them is counted. -/
theorem outcomes_are_exact_two :
    ∃ desk : Desk 1 (listed : LruCache (String × ℕ) CacheEntry),
      Relation.ReflTransGen (DeskSteps anyName narrowConfig some (10 ^ 30))
        (newDesk listed narrowClient) desk ∧
      desk.procs.length = 2 ∧ desk.shared.client.outcomes = ⟨1, 0⟩ := by
  rcases two_calls_reached with ⟨desk, reached, first, second, procs, one, once, two, none⟩
  rcases outcomes_are_exact reached with ⟨completed, failed⟩
  have some : first.heard.isEmpty = false := by
    cases heard : first.heard with
    | nil => simp [heard] at once
    | cons => rfl
  have nothing : second.heard.isEmpty = true := by
    simp [List.eq_nil_of_length_eq_zero none]
  simp only [procs, List.countP_cons, List.countP_nil, answered, lost, betweenCounters, one, two,
    some, nothing] at completed failed
  refine ⟨desk, reached, by simp [procs], ?_⟩
  cases counters : desk.shared.client.outcomes
  simp_all

end Reached

end BlastDns.Calls
