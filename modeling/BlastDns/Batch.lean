import BlastDns.Resolve
import BlastDns.Runs
import Mathlib.Data.List.Perm.Basic

/-!
The default methods of the `DnsResolver` trait of `src/resolver.rs` over any
`resolve_full` that is a function. `resolve_batch_full` is a pipeline of streams:
the host iterator behind `BlockingIteratorStream`, a filter for its errors, the
lookups under `buffer_unordered`, and a filter for their results. One step here
is one event of the pipeline, and lookups may complete in any order.
-/

namespace BlastDns.Batch

open NetText Resolve Runs Worker

/-- What the default methods know of a resolver. Every implementation clamps its
concurrency, and formats the hosts of PTR queries itself. -/
structure DnsResolver where
  resolveFull : String → ℕ → Answer
  getConcurrency : ℕ
  concurrency_pos : 0 < getConcurrency
  formats_ptr : ∀ host, resolveFull host ptrType = resolveFull (formatPtrQuery host) ptrType

/-- What each pull of a host iterator gives; `none` is its end. -/
abbrev HostSource (Fault : Type) := ℕ → Option (Except Fault String)

variable {Fault : Type}

/-- The task that `BlockingIteratorStream` has spawned. -/
inductive Pending (Fault : Type) where
  | idle
  | spawned
  | ready (item : Option (Except Fault String))

structure BatchStream (Fault : Type) where
  pulls : ℕ := 0
  pending : Pending Fault := .idle
  -- the host stream has ended and is not polled again
  ended : Bool := false
  -- lookups that have not completed
  inProgress : List String := []
  yielded : List (String × Answer) := []

/-- The call of `resolve_batch_full` that the stream belongs to. -/
structure BatchCall (Fault : Type) where
  resolver : DnsResolver
  hosts : HostSource Fault
  recordType : ℕ
  skipEmpty : Bool
  skipErrors : Bool

namespace BatchCall

variable (call : BatchCall Fault)

def keeps : Answer → Bool
  | .ok response => !(call.skipEmpty && response.answers.isEmpty)
  | .error _ => !call.skipErrors

def lookup (host : String) : String × Answer :=
  (host, call.resolver.resolveFull host call.recordType)

/-- What these lookups leave for the caller. -/
def results (hosts : List String) : List (String × Answer) :=
  (hosts.map call.lookup).filter fun result => call.keeps result.2

end BatchCall

inductive Event where
  | spawn
  | pull
  | poll
  | complete (index : ℕ)

def batchStep (call : BatchCall Fault) (stream : BatchStream Fault) :
    Event → Option (BatchStream Fault)
  | .spawn =>
      -- `buffer_unordered` polls its input only below the limit, and not past its end
      match stream.pending with
      | .idle =>
          if stream.ended || call.resolver.getConcurrency * 2 ≤ stream.inProgress.length then none
          else some { stream with pending := .spawned }
      | _ => none
  | .pull =>
      match stream.pending with
      | .spawned =>
          some { stream with pulls := stream.pulls + 1, pending := .ready (call.hosts stream.pulls) }
      | _ => none
  | .poll =>
      match stream.pending with
      | .ready (some (.ok host)) =>
          some { stream with pending := .idle, inProgress := stream.inProgress ++ [host] }
      -- the error is printed and the stream goes on
      | .ready (some (.error _)) => some { stream with pending := .idle }
      | .ready none => some { stream with pending := .idle, ended := true }
      | _ => none
  | .complete index =>
      stream.inProgress[index]?.map fun host =>
        { stream with
          inProgress := stream.inProgress.eraseIdx index
          yielded := stream.yielded ++ call.results [host] }

def BatchMoves (call : BatchCall Fault) (before after : BatchStream Fault) : Prop :=
  ∃ event, batchStep call before event = some after

/-- The stream has yielded all it will yield. -/
def Finished (stream : BatchStream Fault) : Prop :=
  stream.ended = true ∧ stream.inProgress = []

section Steps

variable {call : BatchCall Fault} {stream after : BatchStream Fault}

/-- Everything the pipeline can do next. -/
theorem batch_moves_cases (moved : BatchMoves call stream after) :
    (stream.pending = .idle ∧ stream.ended = false ∧
      after = { stream with pending := .spawned }) ∨
    (stream.pending = .spawned ∧ after = { stream with
      pulls := stream.pulls + 1, pending := .ready (call.hosts stream.pulls) }) ∨
    (∃ host, stream.pending = .ready (some (.ok host)) ∧ after = { stream with
      pending := .idle, inProgress := stream.inProgress ++ [host] }) ∨
    (∃ fault, stream.pending = .ready (some (.error fault)) ∧
      after = { stream with pending := .idle }) ∨
    (stream.pending = .ready none ∧ after = { stream with pending := .idle, ended := true }) ∨
    ∃ index host, stream.inProgress[index]? = some host ∧ after = { stream with
      inProgress := stream.inProgress.eraseIdx index
      yielded := stream.yielded ++ call.results [host] } := by
  rcases moved with ⟨event, stepped⟩
  cases event with
  | spawn =>
      left
      rw [batchStep] at stepped
      split at stepped
      · split at stepped
        · cases stepped
        · rename_i idle open_
          simp only [Bool.or_eq_true, decide_eq_true_eq, not_or, Bool.not_eq_true] at open_
          exact ⟨idle, open_.1, (Option.some.inj stepped).symm⟩
      · cases stepped
  | pull =>
      right; left
      rw [batchStep] at stepped
      split at stepped
      · rename_i spawned
        exact ⟨spawned, (Option.some.inj stepped).symm⟩
      · cases stepped
  | poll =>
      rw [batchStep] at stepped
      split at stepped
      · rename_i host ready
        right; right; left
        exact ⟨host, ready, (Option.some.inj stepped).symm⟩
      · rename_i fault ready
        right; right; right; left
        exact ⟨fault, ready, (Option.some.inj stepped).symm⟩
      · rename_i ready
        right; right; right; right; left
        exact ⟨ready, (Option.some.inj stepped).symm⟩
      · cases stepped
  | complete index =>
      rcases Option.map_eq_some_iff.mp stepped with ⟨host, found, same⟩
      right; right; right; right; right
      exact ⟨index, host, found, same.symm⟩

/-- Before its end the stream always has something to do. -/
theorem unfinished_moves (running : ¬ Finished stream) : ∃ after, BatchMoves call stream after := by
  by_cases busy : stream.inProgress = []
  · have open_ : stream.ended = false := by
      cases ended : stream.ended with
      | false => rfl
      | true => exact absurd ⟨ended, busy⟩ running
    cases pending : stream.pending with
    | idle =>
        have room := call.resolver.concurrency_pos
        refine ⟨{ stream with pending := .spawned }, .spawn, ?_⟩
        simp [batchStep, pending, open_, busy, room.ne']
    | spawned => exact ⟨_, .pull, by simp [batchStep, pending]; rfl⟩
    | ready item =>
        match item with
        | some (.ok host) => exact ⟨_, .poll, by simp [batchStep, pending]; rfl⟩
        | some (.error fault) => exact ⟨_, .poll, by simp [batchStep, pending]; rfl⟩
        | none => exact ⟨_, .poll, by simp [batchStep, pending]; rfl⟩
  · rcases List.exists_cons_of_ne_nil busy with ⟨host, rest, same⟩
    exact ⟨_, .complete 0, by simp [batchStep, same]; rfl⟩

end Steps

section Accounts

variable {call : BatchCall Fault} {stream after : BatchStream Fault}

/-- The hosts among the first pulls. -/
def hostsBefore (hosts : HostSource Fault) (pulls : ℕ) : List String :=
  (List.range pulls).filterMap fun pull => (hosts pull).bind Except.toOption

theorem hosts_before_succ (hosts : HostSource Fault) (pulls : ℕ) :
    hostsBefore hosts (pulls + 1) =
      hostsBefore hosts pulls ++ ((hosts pulls).bind Except.toOption).toList := by
  rw [hostsBefore, List.range_succ, List.filterMap_append]
  cases host : (hosts pulls).bind Except.toOption <;> simp [hostsBefore, host]

/-- Pulls whose item has left the adapter. -/
def delivered (stream : BatchStream Fault) : ℕ :=
  match stream.pending with
  | .ready _ => stream.pulls - 1
  | .idle | .spawned => stream.pulls

theorem results_append (first second : List String) :
    call.results (first ++ second) = call.results first ++ call.results second := by
  rw [BatchCall.results, List.map_append, List.filter_append]
  rfl

/-- Nothing is dropped and nothing repeated between the iterator and the caller. -/
structure Accounts (call : BatchCall Fault) (stream : BatchStream Fault) : Prop where
  kept : (stream.yielded ++ call.results stream.inProgress).Perm
    (call.results (hostsBefore call.hosts (delivered stream)))
  awaited : ∀ item, stream.pending = .ready item →
    ∃ pull, stream.pulls = pull + 1 ∧ item = call.hosts pull
  finished : stream.ended = true → stream.pending = .idle ∧
    ∃ pull, stream.pulls = pull + 1 ∧ call.hosts pull = none

/-- An item leaves the adapter: its host, if it is one, is looked up next. -/
theorem accounts_delivered (accounts : Accounts call stream) {item : Option (Except Fault String)}
    (ready : stream.pending = .ready item) :
    (stream.yielded ++ call.results (stream.inProgress ++ (item.bind Except.toOption).toList)).Perm
      (call.results (hostsBefore call.hosts stream.pulls)) := by
  have kept := accounts.kept
  rcases accounts.awaited item ready with ⟨pull, pulls, same⟩
  have before : delivered stream = pull := by
    rw [delivered, ready]
    dsimp only
    omega
  rw [before] at kept
  rw [pulls, hosts_before_succ, ← same, results_append, results_append, ← List.append_assoc]
  exact kept.append_right _

theorem complete_perm {index : ℕ} {host : String} {inProgress : List String}
    (found : inProgress[index]? = some host) :
    (call.results [host] ++ call.results (inProgress.eraseIdx index)).Perm
      (call.results inProgress) := by
  rw [← results_append]
  have moved : ([host] ++ inProgress.eraseIdx index).Perm inProgress := by
    rcases List.getElem?_eq_some_iff.mp found with ⟨inside, rfl⟩
    exact (List.getElem_cons_eraseIdx_perm inside)
  exact (moved.map _).filter _

theorem batch_moves_accounts (accounts : Accounts call stream)
    (moved : BatchMoves call stream after) : Accounts call after := by
  have ⟨kept, awaited, halted⟩ := accounts
  rcases batch_moves_cases moved with ⟨idle, open_, rfl⟩ | ⟨spawned, rfl⟩ | ⟨host, ready, rfl⟩ |
    ⟨fault, ready, rfl⟩ | ⟨ready, rfl⟩ | ⟨index, host, found, rfl⟩
  · have same : delivered stream = stream.pulls := by rw [delivered, idle]
    rw [same] at kept
    refine ⟨kept, by simp, ?_⟩
    intro ended
    rw [open_] at ended
    cases ended
  · have same : delivered stream = stream.pulls := by rw [delivered, spawned]
    rw [same] at kept
    refine ⟨kept, ?_, ?_⟩
    · rintro item again
      cases again
      exact ⟨stream.pulls, rfl, rfl⟩
    · intro ended
      rw [(halted ended).1] at spawned
      cases spawned
  · refine ⟨accounts_delivered accounts ready, by simp, ?_⟩
    intro ended
    rw [(halted ended).1] at ready
    cases ready
  · have sent := accounts_delivered accounts ready
    rw [Option.bind_some, Except.toOption, Option.toList_none, List.append_nil] at sent
    refine ⟨sent, by simp, ?_⟩
    intro ended
    rw [(halted ended).1] at ready
    cases ready
  · have sent := accounts_delivered accounts ready
    rw [Option.bind_none, Option.toList_none, List.append_nil] at sent
    refine ⟨sent, by simp, ?_⟩
    intro _
    rcases awaited none ready with ⟨pull, pulls, last⟩
    exact ⟨rfl, pull, pulls, last.symm⟩
  · refine ⟨?_, awaited, halted⟩
    dsimp only
    rw [List.append_assoc]
    exact (List.Perm.append_left _ (complete_perm found)).trans kept

theorem reached_accounts (reached : Relation.ReflTransGen (BatchMoves call) {} stream) :
    Accounts call stream := by
  apply reachable_invariant (Accounts call) _ reached
  · exact ⟨List.Perm.refl _, by simp, by simp⟩
  · intro before after accounts moved
    exact batch_moves_accounts accounts moved

end Accounts

section Sources

/-- An iterator over a finite sequence, some of whose items may be errors. -/
def finiteSource (items : List (Except Fault String)) : HostSource Fault := fun pull => items[pull]?

theorem finite_hosts (items : List (Except Fault String)) (pulls : ℕ) :
    hostsBefore (finiteSource items) pulls = (items.take pulls).filterMap Except.toOption := by
  induction pulls with
  | zero => rfl
  | succ pulls ih =>
      have last : ((finiteSource items pulls).bind Except.toOption).toList =
          items[pulls]?.toList.filterMap Except.toOption := by
        rw [finiteSource]
        cases items[pulls]? with
        | none => rfl
        | some item => cases item <;> rfl
      rw [hosts_before_succ, ih, last, ← List.filterMap_append, List.take_add_one]

/-- Steps that are left: four for each item still to be pulled, one for each lookup,
and those of the pending task. -/
def stepsLeft (items : List (Except Fault String)) (stream : BatchStream Fault) : ℕ :=
  4 * (items.length - stream.pulls) + stream.inProgress.length +
    match stream.ended, stream.pending with
    | true, _ => 0
    | false, .idle => 3
    | false, .spawned => 2
    | false, .ready (some _) => 5
    | false, .ready none => 1

variable {call : BatchCall Fault} {stream after : BatchStream Fault}

theorem pending_open (accounts : Accounts call stream) (busy : stream.pending ≠ .idle) :
    stream.ended = false := by
  cases ended : stream.ended with
  | false => rfl
  | true => exact absurd (accounts.finished ended).1 busy

theorem batch_moves_fewer {items : List (Except Fault String)}
    (finite : call.hosts = finiteSource items) (accounts : Accounts call stream)
    (moved : BatchMoves call stream after) : stepsLeft items after < stepsLeft items stream := by
  rcases batch_moves_cases moved with ⟨idle, open_, rfl⟩ | ⟨spawned, rfl⟩ | ⟨host, ready, rfl⟩ |
    ⟨fault, ready, rfl⟩ | ⟨ready, rfl⟩ | ⟨index, host, found, rfl⟩
  · simp only [stepsLeft, idle, open_]
    omega
  · have open_ := pending_open accounts (by rw [spawned]; simp)
    have next : call.hosts stream.pulls = items[stream.pulls]? := by rw [finite, finiteSource]
    by_cases more : stream.pulls < items.length
    · rw [List.getElem?_eq_getElem more] at next
      simp only [stepsLeft, spawned, open_, next]
      omega
    · rw [List.getElem?_eq_none (not_lt.mp more)] at next
      simp only [stepsLeft, spawned, open_, next]
      omega
  · have open_ := pending_open accounts (by rw [ready]; simp)
    simp only [stepsLeft, ready, open_, List.length_append, List.length_singleton]
    omega
  · have open_ := pending_open accounts (by rw [ready]; simp)
    simp only [stepsLeft, ready, open_]
    omega
  · have open_ := pending_open accounts (by rw [ready]; simp)
    simp only [stepsLeft, ready, open_]
    omega
  · rcases List.getElem?_eq_some_iff.mp found with ⟨inside, _⟩
    simp only [stepsLeft, List.length_eraseIdx_of_lt inside]
    omega

/-- A batch over finitely many hosts cannot go on for ever. -/
theorem finite_batch_ends {items : List (Except Fault String)}
    (finite : call.hosts = finiteSource items) :
    ¬ ∃ streams : ℕ → BatchStream Fault, streams 0 = {} ∧
      ∀ time, BatchMoves call (streams time) (streams (time + 1)) := by
  rintro ⟨streams, start, moves⟩
  have reached : ∀ time, Accounts call (streams time) ∧
      stepsLeft items (streams time) + time ≤ stepsLeft items {} := by
    intro time
    induction time with
    | zero =>
        rw [start]
        exact ⟨reached_accounts .refl, le_rfl⟩
    | succ time ih =>
        have fewer := batch_moves_fewer finite ih.1 (moves time)
        exact ⟨batch_moves_accounts ih.1 (moves time), by omega⟩
  have late := (reached (stepsLeft items {} + 1)).2
  omega

theorem finished_yields {items : List (Except Fault String)}
    (finite : call.hosts = finiteSource items)
    (reached : Relation.ReflTransGen (BatchMoves call) {} stream) (finished : Finished stream) :
    stream.yielded.Perm (call.results (items.filterMap Except.toOption)) := by
  have ⟨kept, _, halted⟩ := reached_accounts reached
  rcases halted finished.1 with ⟨idle, pull, pulls, last⟩
  have all : items.length ≤ stream.pulls := by
    rw [finite] at last
    have past := List.getElem?_eq_none_iff.mp last
    omega
  have through : delivered stream = stream.pulls := by rw [delivered, idle]
  rw [finished.2, through, finite, finite_hosts, List.take_of_length_le all] at kept
  simpa [BatchCall.results] using kept

end Sources

section Methods

def answerStrings (response : DnsResponse) : List String := response.answers.map (·.rdata)

/-- The last filter of `resolve_batch`. -/
def project (typeName : String) : String × Answer → Option (String × String × List String)
  | (host, .ok response) =>
      if (answerStrings response).isEmpty then none
      else some (host, typeName, answerStrings response)
  | (_, .error _) => none

namespace DnsResolver

variable (resolver : DnsResolver)

/-- `resolve_multi_full`; collecting into a `HashMap` keeps the last value of a key. -/
def resolveMultiFull (host : String) (recordTypes : List ℕ) :
    Except BlastDNSError (ℕ → Option Answer) :=
  if recordTypes.isEmpty then .error (.configuration "at least one record type is required")
  else
    let results := recordTypes.map fun recordType =>
      let queryHost := if recordType = ptrType then formatPtrQuery host else host
      (recordType, resolver.resolveFull queryHost recordType)
    .ok (results.foldl (fun map result => Function.update map result.1 (some result.2))
      fun _ => none)

def resolveMulti (host : String) (recordTypes : List ℕ) :
    Except BlastDNSError (ℕ → Option (List String)) := do
  let fullResults ← resolver.resolveMultiFull host recordTypes
  return fun recordType => (fullResults recordType).bind fun result =>
    result.toOption.bind fun response =>
      if (answerStrings response).isEmpty then none else some (answerStrings response)

end DnsResolver

theorem collected {Value : Type} (value : ℕ → Value) (keys : List ℕ) (key : ℕ)
    (table : ℕ → Option Value) :
    ((keys.map fun key => (key, value key)).foldl
      (fun (table : ℕ → Option Value) entry => Function.update table entry.1 (some entry.2))
      table) key = if key ∈ keys then some (value key) else table key := by
  induction keys generalizing table with
  | nil => rfl
  | cons first rest ih =>
      rw [List.map_cons, List.foldl_cons, ih]
      by_cases same : key = first
      · subst same
        simp
      · simp [same]

theorem asked_for_ptr (resolver : DnsResolver) (host : String) (recordType : ℕ) :
    resolver.resolveFull (if recordType = ptrType then formatPtrQuery host else host) recordType =
      resolver.resolveFull host recordType := by
  split
  · rename_i ptr
    rw [ptr, resolver.formats_ptr host]
  · rfl

theorem multi_full_results (resolver : DnsResolver) (host : String) {recordTypes : List ℕ}
    (some : recordTypes ≠ []) :
    resolver.resolveMultiFull host recordTypes = .ok fun recordType =>
      if recordType ∈ recordTypes then .some (resolver.resolveFull host recordType) else none := by
  rw [DnsResolver.resolveMultiFull, if_neg (by simpa using some)]
  apply congrArg Except.ok
  funext recordType
  simp only [asked_for_ptr]
  exact collected (resolver.resolveFull host) recordTypes recordType _

def isEmptyResponse : Answer → Bool
  | .ok response => response.answers.isEmpty
  | .error _ => false

def isError : Answer → Bool
  | .ok _ => false
  | .error _ => true

theorem keeps_iff (call : BatchCall Fault) (result : Answer) :
    call.keeps result =
      (!(call.skipEmpty && isEmptyResponse result) && !(call.skipErrors && isError result)) := by
  cases result <;> simp [BatchCall.keeps, isEmptyResponse, isError]

theorem projected {call : BatchCall Fault} {stream : BatchStream Fault}
    (reached : Relation.ReflTransGen (BatchMoves call) {} stream) (empty : call.skipEmpty = true)
    (errors : call.skipErrors = true) {result : String × Answer}
    (member : result ∈ stream.yielded) :
    ∃ response, result.2 = .ok response ∧ answerStrings response ≠ [] := by
  have among := (reached_accounts reached).kept.subset (List.mem_append_left _ member)
  have kept := (List.mem_filter.mp among).2
  rw [keeps_iff, empty, errors] at kept
  rcases result with ⟨host, answer⟩
  cases answer with
  | error err => cases kept
  | ok response =>
      refine ⟨response, rfl, ?_⟩
      simpa [isEmptyResponse, isError, answerStrings] using kept

/-- What a simplified result shows of a full one. -/
def simplified (typeName : String) (result : String × Answer) : String × String × List String :=
  (result.1, typeName, (result.2.toOption.map answerStrings).getD [])

theorem project_answered (typeName : String) {result : String × Answer} {response : DnsResponse}
    (answered : result.2 = .ok response) (some : answerStrings response ≠ []) :
    project typeName result = .some (simplified typeName result) := by
  rcases result with ⟨host, answer⟩
  cases answered
  simp [project, simplified, some, Except.toOption]

theorem project_all (typeName : String) {results : List (String × Answer)}
    (answered : ∀ result ∈ results, ∃ response, result.2 = .ok response ∧
      answerStrings response ≠ []) :
    results.filterMap (project typeName) = results.map (simplified typeName) ∧
      ∀ output ∈ results.filterMap (project typeName), output.2.2 ≠ [] := by
  have same : ∀ result ∈ results, project typeName result = some (simplified typeName result) := by
    intro result member
    rcases answered result member with ⟨response, ok, some⟩
    exact project_answered typeName ok some
  have mapped := List.filterMap_eq_map_iff_forall_eq_some.mpr same
  refine ⟨mapped, ?_⟩
  rw [mapped]
  intro output member
  rcases List.mem_map.mp member with ⟨result, listed, rfl⟩
  rcases answered result listed with ⟨response, ok, some⟩
  simpa [simplified, ok, Except.toOption] using some

theorem multi_results (resolver : DnsResolver) (host : String) {recordTypes : List ℕ}
    {full : ℕ → Option Answer} (returned : resolver.resolveMultiFull host recordTypes = .ok full) :
    ∃ simple, resolver.resolveMulti host recordTypes = .ok simple ∧
      ∀ key answers, simple key = some answers ↔ ∃ response, full key = some (.ok response) ∧
        answers = answerStrings response ∧ answers ≠ [] := by
  refine ⟨_, by rw [DnsResolver.resolveMulti, returned]; rfl, ?_⟩
  intro key answers
  cases found : full key with
  | none => simp
  | some result =>
      cases result with
      | error err => simp [Except.toOption]
      | ok response =>
          by_cases empty : answerStrings response = []
          · simp [Except.toOption, empty]
          · have shown : (Option.some (Except.ok response : Answer)).bind (fun result =>
                result.toOption.bind fun response =>
                  if (answerStrings response).isEmpty then none
                  else some (answerStrings response)) = some (answerStrings response) := by
              simp [Except.toOption, empty]
            rw [shown]
            constructor
            · rintro same
              cases same
              exact ⟨response, rfl, rfl, empty⟩
            · rintro ⟨other, same, rfl, _⟩
              cases same
              rfl

end Methods

section Agreement

variable (resolver : DnsResolver) (items : List (Except Fault String)) (recordType : ℕ)

def batchOf (skipEmpty skipErrors : Bool) : BatchCall Fault where
  resolver := resolver
  hosts := finiteSource items
  recordType := recordType
  skipEmpty := skipEmpty
  skipErrors := skipErrors

/-- All query methods agree with `resolve_full`: a batch ends, having yielded one result
for each host it was given, less those it was told to skip; the simplified batch drops
none of the full one's; and the maps have the types asked for, of which there must be
one. -/
theorem query_methods_agree (skipEmpty skipErrors : Bool) (typeName : ℕ → String) (host : String)
    (recordTypes : List ℕ) :
    (¬ ∃ streams : ℕ → BatchStream Fault, streams 0 = {} ∧ ∀ time,
      BatchMoves (batchOf resolver items recordType skipEmpty skipErrors) (streams time)
        (streams (time + 1))) ∧
    (∀ stream, Relation.ReflTransGen
        (BatchMoves (batchOf resolver items recordType skipEmpty skipErrors)) {} stream →
      (¬ Finished stream → ∃ after,
        BatchMoves (batchOf resolver items recordType skipEmpty skipErrors) stream after) ∧
      (Finished stream → stream.yielded.Perm
        (((items.filterMap Except.toOption).map fun host =>
          (host, resolver.resolveFull host recordType)).filter fun result =>
            !(skipEmpty && isEmptyResponse result.2) && !(skipErrors && isError result.2)))) ∧
    (∀ stream, Relation.ReflTransGen
        (BatchMoves (batchOf resolver items recordType true true)) {} stream →
      stream.yielded.filterMap (project (typeName recordType)) =
        stream.yielded.map (simplified (typeName recordType)) ∧
      ∀ output ∈ stream.yielded.filterMap (project (typeName recordType)), output.2.2 ≠ []) ∧
    (recordTypes = [] → resolver.resolveMultiFull host recordTypes =
      .error (.configuration "at least one record type is required")) ∧
    (recordTypes ≠ [] → ∃ full simple,
      resolver.resolveMultiFull host recordTypes = .ok full ∧
      resolver.resolveMulti host recordTypes = .ok simple ∧
      (∀ key, full key =
        if key ∈ recordTypes then some (resolver.resolveFull host key) else none) ∧
      ∀ key answers, simple key = some answers ↔ ∃ response, full key = some (.ok response) ∧
        answers = answerStrings response ∧ answers ≠ []) := by
  refine ⟨finite_batch_ends rfl, ?_, ?_, ?_, ?_⟩
  · intro stream reached
    refine ⟨unfinished_moves, ?_⟩
    intro finished
    have yields := finished_yields rfl reached finished
    simp only [BatchCall.results, keeps_iff] at yields
    exact yields
  · intro stream reached
    exact project_all _ fun result member => projected reached rfl rfl member
  · rintro rfl
    rfl
  · intro some
    have full := multi_full_results resolver host some
    rcases multi_results resolver host full with ⟨simple, returned, shows⟩
    exact ⟨_, simple, full, returned, fun key => rfl, shows⟩

/-- One dead name and one without records; every PTR query has the same answer. -/
def sampleResolver : DnsResolver where
  resolveFull host recordType :=
    if recordType = ptrType then .ok ⟨0, false, [⟨60, "ptr.example."⟩]⟩
    else if host = "dead.example" then .error .workerDropped
    else if host = "empty.example" then .ok ⟨0, false, []⟩
    else .ok ⟨0, false, [⟨60, "192.0.2.1"⟩]⟩
  getConcurrency := 32
  concurrency_pos := by decide
  formats_ptr := by simp

/-- A host twice, a failed pull and a dead name, completed in another order. -/
theorem query_methods_agree_sample :
    ∃ stream : BatchStream Unit, Relation.ReflTransGen (BatchMoves (batchOf sampleResolver
        [.ok "a.example", .error (), .ok "dead.example", .ok "a.example"] 1 false true)) {} stream ∧
      Finished stream ∧ stream.yielded.Perm
        [("a.example", .ok ⟨0, false, [⟨60, "192.0.2.1"⟩]⟩),
          ("a.example", .ok ⟨0, false, [⟨60, "192.0.2.1"⟩]⟩)] := by
  have replayed : (List.foldlM (batchStep (batchOf sampleResolver
      [.ok "a.example", .error (), .ok "dead.example", .ok "a.example"] 1 false true)) {}
      [.spawn, .pull, .poll, .spawn, .pull, .poll, .spawn, .pull, .poll, .complete 1, .spawn,
        .pull, .poll, .complete 1, .spawn, .pull, .complete 0, .poll]).map (fun stream =>
          stream.ended && stream.inProgress.isEmpty) = some true := by
    decide
  rcases Option.map_eq_some_iff.mp replayed with ⟨stream, ends, shown⟩
  have finished : Finished stream := by simpa [Finished] using shown
  have reached := replay_reaches ends
  have agree := query_methods_agree sampleResolver
    [.ok "a.example", .error (), .ok "dead.example", .ok "a.example"] 1 false true
    (fun _ => "A") "a.example" [1]
  exact ⟨stream, reached, finished, (agree.2.1 stream reached).2 finished⟩

/-- Asked for no type at all, `resolve_multi_full` has no map to give. -/
theorem no_types_no_map : ¬ ∃ full, sampleResolver.resolveMultiFull "a.example" [] = .ok full ∧
    ∀ key, (full key).isSome = true ↔ key ∈ ([] : List ℕ) := by
  rintro ⟨full, returned, _⟩
  cases returned

end Agreement

end BlastDns.Batch
