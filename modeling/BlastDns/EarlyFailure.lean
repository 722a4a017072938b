import BlastDns.RetryLoop

/-!
Where the errors of an attempt come from. `run` rejects a name or finds no
resolver whichever resolver it would have been; from `client()` on, an error is
about the resolver the attempt was given. Whether another attempt follows is
decided elsewhere, by the variant alone, and a transport that cannot be set up
has a variant that is never retried.
-/

namespace BlastDns.EarlyFailure

open Lru Cache Worker Resolve RetryLoop NetText

/-- `Display` of a socket address. -/
def socketText : SocketAddr → String
  | .v4 ip port => String.ofList (ip.display ++ ':' :: decimal port)
  | .v6 ip port _ scopeId =>
      let scope := if scopeId.val = 0 then [] else '%' :: decimal scopeId
      String.ofList ('[' :: ip.display ++ scope ++ "]:".toList ++ decimal port)

inductive Reply where
  | response (response : DnsResponse)
  | failed (source : ClientError)
  | late

/-- The resolver an attempt was given, and what the attempt meets there. -/
structure Selected where
  resolver : SocketAddr
  requestTimeoutNs : ℕ
  persistentSocket : Bool
  -- an earlier attempt has filled the cell of the client
  connected : Bool
  bind : Except String Unit
  handshake : Except ProtoError Unit
  reply : Reply
  refetched : Option DnsResponse

namespace Selected

def connectPerQuery (chosen : Selected) : Except BlastDNSError Unit :=
  chosen.handshake.mapError (.resolverSetupFailed chosen.resolver)

def connectPersistent (chosen : Selected) : Except BlastDNSError Unit :=
  match chosen.bind with
  | .error reason =>
      .error (.configuration
        ("failed to bind socket for " ++ socketText chosen.resolver ++ ": " ++ reason))
  | .ok () => chosen.handshake.mapError (.resolverSetupFailed chosen.resolver)

def connect (chosen : Selected) : Except BlastDNSError Unit :=
  if chosen.persistentSocket then chosen.connectPersistent else chosen.connectPerQuery

def client (chosen : Selected) : Except BlastDNSError Unit :=
  if chosen.connected then .ok () else chosen.connect

def queryBounded (chosen : Selected) : Answer :=
  match chosen.client with
  | .error err => .error err
  | .ok () =>
      match chosen.reply with
      | .response response => .ok response
      | .failed source => .error (.resolverRequestFailed chosen.resolver source)
      | .late => .error (.queryTimedOut chosen.resolver chosen.requestTimeoutNs)

/-- `query`, less what it records. -/
def query (chosen : Selected) : Answer :=
  match chosen.queryBounded with
  | .ok response =>
      if response.truncated then .ok (chosen.refetched.getD response) else .ok response
  | .error err => .error err

end Selected

/-- The course of an attempt: the queue is closed, the worker goes away with the
item, or a worker gets as far as `reserve` lets it. -/
inductive Course where
  | closed
  | dropped
  | worked (reservation : Option Selected)

section Origins

variable {Name : Type} (fromAscii : String → Except ProtoError Name)

def work (host : String) (reservation : Option Selected) : Answer :=
  match fromAscii host with
  | .error source => .error (.invalidHostname host source)
  | .ok _ =>
      match reservation with
      | none => .error .noResolvers
      | some chosen => chosen.query

def attempt (host : String) : Course → Attempt
  | .closed => .closed
  | .dropped => .dropped
  | .worked reservation => .answered (work fromAscii host reservation)

def setupFails (host : String) : Course → Bool
  | .worked (some chosen) => (fromAscii host).isOk && !chosen.client.isOk
  | _ => false

/-- The error would have been the same for every resolver of the pool. -/
def isPoolWide : BlastDNSError → Bool
  | .noResolvers | .invalidHostname _ _ | .queueClosed => true
  | _ => false

/-- A failing `client()` gives one of two variants, neither of them retried. -/
theorem client_error {chosen : Selected} {err : BlastDNSError} (failed : chosen.client = .error err) :
    err.isRetryable = false ∧ isPoolWide err = false := by
  have refused : ∀ handshake : Except ProtoError Unit,
      handshake.mapError (.resolverSetupFailed chosen.resolver) = .error err →
      err.isRetryable = false ∧ isPoolWide err = false := by
    intro handshake
    cases handshake with
    | ok _ => intro impossible; cases impossible
    | error source => intro same; cases same; exact ⟨rfl, rfl⟩
  rw [Selected.client] at failed
  split at failed
  · cases failed
  · rw [Selected.connect] at failed
    split at failed
    · rw [Selected.connectPersistent] at failed
      split at failed
      · cases failed
        exact ⟨rfl, rfl⟩
      · exact refused _ failed
    · exact refused _ failed

theorem query_error {chosen : Selected} {err : BlastDNSError} (failed : chosen.query = .error err) :
    chosen.client = .error err ∨ err.isRetryable = true := by
  rw [Selected.query] at failed
  split at failed
  · split at failed <;> cases failed
  · rename_i source bounded
    cases failed
    rw [Selected.queryBounded] at bounded
    split at bounded
    · rename_i same
      cases bounded
      exact Or.inl same
    · split at bounded <;> cases bounded
      · exact Or.inr rfl
      · exact Or.inr rfl

/-- Every error of an attempt is of the whole pool, or is retried, or comes from
setting up the transport. -/
theorem attempt_error {host : String} {course : Course} {err : BlastDNSError}
    (failed : (attempt fromAscii host course).outcome = .error err) :
    isPoolWide err = true ∨ err.isRetryable = true ∨ setupFails fromAscii host course = true := by
  cases course with
  | closed =>
      cases failed
      exact Or.inl rfl
  | dropped =>
      cases failed
      exact Or.inr (Or.inl rfl)
  | worked reservation =>
      simp only [attempt, Attempt.outcome, work] at failed
      cases named : fromAscii host with
      | error source =>
          rw [named] at failed
          cases failed
          exact Or.inl rfl
      | ok name =>
          rw [named] at failed
          cases reservation with
          | none =>
              cases failed
              exact Or.inl rfl
          | some chosen =>
              rcases query_error failed with broken | retried
              · exact Or.inr (Or.inr (by rw [setupFails, named, broken]; rfl))
              · exact Or.inr (Or.inl retried)

theorem setup_error {host : String} {course : Course}
    (broken : setupFails fromAscii host course = true) :
    ∃ err, (attempt fromAscii host course).outcome = .error err ∧ err.isRetryable = false ∧
      isPoolWide err = false := by
  cases course with
  | closed => cases broken
  | dropped => cases broken
  | worked reservation =>
      cases reservation with
      | none => cases broken
      | some chosen =>
          rw [setupFails, Bool.and_eq_true] at broken
          rcases broken with ⟨named, unset⟩
          cases parsed : fromAscii host with
          | error source =>
              rw [parsed] at named
              cases named
          | ok name =>
              cases failed : chosen.client with
              | ok _ =>
                  rw [failed] at unset
                  cases unset
              | error err =>
                  refine ⟨err, ?_, client_error failed⟩
                  simp only [attempt, Attempt.outcome, work, parsed, Selected.query,
                    Selected.queryBounded, failed]

end Origins

section Calls

variable {Name : Type} [DecidableEq Name] {lru : LruCache (Name × ℕ) CacheEntry}
variable {Parsed : Type} (fromAscii : String → Except ProtoError Parsed)
variable (parse : String → Option Name) (latest : ℕ)

def askedHost (host : String) (recordType : ℕ) : String :=
  if recordType = ptrType then formatPtrQuery host else host

def callOf (host : String) (recordType askedAt : ℕ) (courses : ℕ → Course) (settledAt : ℕ → ℕ) :
    Call where
  host := host
  recordType := recordType
  askedAt := askedAt
  attempts index := attempt fromAscii (askedHost host recordType) (courses index)
  settledAt := settledAt

/-- A call that gives up with attempts to spare does so for a reason no other
resolver could mend. -/
def GivesUpRightly (maxRetries : ℕ) (state : ClientState lru) (call : Call) : Prop :=
  ∀ err after consumed, resolveFull parse latest maxRetries state call = some (.error err, after) →
    after.offered = state.offered ++ List.replicate consumed call.query →
    consumed ≤ maxRetries → isPoolWide err = true

def retriedError (sent : Attempt) : Bool :=
  match sent.outcome with
  | .ok _ => false
  | .error err => err.isRetryable

def Reaches (call : Call) (index : ℕ) : Prop :=
  ∀ earlier < index, conclusive (call.attempts earlier) = false

theorem stopped_error {maxRetries stop : ℕ} {state : ClientState lru} {call : Call}
    {err : BlastDNSError} (unanswered : Unanswered parse state call)
    (stops : StopsAt call (attemptsFor maxRetries) stop)
    (failed : (call.attempts stop).outcome = .error err) :
    ∃ after, resolveFull parse latest maxRetries state call = some (.error err, after) ∧
      after.offered = state.offered ++ List.replicate (stop + 1) call.query := by
  have returned := resolve_full_missed parse latest unanswered stops
  rw [failed] at returned
  exact ⟨_, returned, (settled_looked_up parse (settled_error _ (stop + 1) err)).offered⟩

theorem stops_at_failure {maxRetries index : ℕ} {call : Call} (before : index < maxRetries)
    (within : index < usizeMax) (reaches : Reaches call index)
    (ends : conclusive (call.attempts index) = true ∨ index + 1 = usizeMax) :
    StopsAt call (attemptsFor maxRetries) index := by
  have attempts : attemptsFor maxRetries = min (maxRetries + 1) usizeMax := rfl
  refine ⟨by omega, reaches, ?_⟩
  rcases ends with final | last
  · exact Or.inl final
  · exact Or.inr (by omega)

theorem broken_setup_gives_up {maxRetries index : ℕ} {state : ClientState lru} {host : String}
    {recordType askedAt : ℕ} {courses : ℕ → Course} {settledAt : ℕ → ℕ}
    (unanswered : Unanswered parse state (callOf fromAscii host recordType askedAt courses settledAt))
    (before : index < maxRetries) (within : index < usizeMax)
    (reaches : Reaches (callOf fromAscii host recordType askedAt courses settledAt) index)
    (broken : setupFails fromAscii (askedHost host recordType) (courses index) = true) :
    ¬ GivesUpRightly parse latest maxRetries state
      (callOf fromAscii host recordType askedAt courses settledAt) := by
  intro rightly
  rcases setup_error fromAscii broken with ⟨err, failed, final, specific⟩
  have ends : conclusive
      ((callOf fromAscii host recordType askedAt courses settledAt).attempts index) = true := by
    simp [conclusive, callOf, failed, final]
  rcases stopped_error parse latest unanswered
      (stops_at_failure before within reaches (Or.inl ends)) failed with ⟨after, returned, offered⟩
  rw [rightly err after (index + 1) returned offered before] at specific
  cases specific

/-- A call gives up rightly exactly when no attempt before the last it is entitled to
fails to set up the transport of its resolver; only with `usize::MAX` retries, where
the count of attempts saturates, may the last one not fail either. -/
theorem gives_up_rightly_iff (maxRetries : ℕ) (state : ClientState lru) (host : String)
    (recordType askedAt : ℕ) (courses : ℕ → Course) (settledAt : ℕ → ℕ) :
    let call := callOf fromAscii host recordType askedAt courses settledAt
    GivesUpRightly parse latest maxRetries state call ↔
      (Unanswered parse state call → ∀ index, index < maxRetries → index < usizeMax →
        Reaches call index →
        setupFails fromAscii (askedHost host recordType) (courses index) = false ∧
          (index + 1 = usizeMax → retriedError (call.attempts index) = false)) := by
  intro call
  constructor
  · intro rightly unanswered index before within reaches
    constructor
    · by_contra broken
      exact broken_setup_gives_up fromAscii parse latest unanswered before within reaches
        (by simpa using broken) rightly
    · intro last
      -- the loop has one attempt less than `max_retries` promises, and this is its last
      have stops := stops_at_failure before within reaches (Or.inr last)
      rw [retriedError]
      cases failed : (call.attempts index).outcome with
      | ok response => rfl
      | error err =>
          rcases stopped_error parse latest unanswered stops failed with ⟨after, returned, offered⟩
          have poolWide := rightly err after (index + 1) returned offered before
          cases err <;> first | rfl | cases poolWide
  · intro sound err after consumed returned offered early
    by_cases unanswered : Unanswered parse state call
    · rcases stops_exists call (attempts_for_pos maxRetries) with ⟨stop, stops⟩
      cases failed : (call.attempts stop).outcome with
      | ok response =>
          rw [resolve_full_missed parse latest unanswered stops, failed] at returned
          rcases Option.map_eq_some_iff.mp returned with ⟨_, _, same⟩
          cases same
      | error final =>
          rcases stopped_error parse latest unanswered stops failed with ⟨other, same, counted⟩
          rw [same] at returned
          cases returned
          have length : stop + 1 = consumed := by
            have lengths := congrArg List.length (counted.symm.trans offered)
            simpa using lengths
          have within := stops.within
          have attempts : attemptsFor maxRetries = min (maxRetries + 1) usizeMax := rfl
          rcases sound unanswered stop (by omega) (by omega) stops.earlier with ⟨setUp, last⟩
          have unretried : err.isRetryable = false := by
            rcases stops.settles with ends | final
            · simpa [conclusive, failed] using ends
            · have unretried := last (by omega)
              rwa [retriedError, failed] at unretried
          rcases attempt_error fromAscii failed with poolWide | retried | broken
          · exact poolWide
          · rw [retried] at unretried
            cases unretried
          · rw [setUp] at broken
            cases broken
    · rcases resolve_full_hit parse latest unanswered with ⟨response, hit⟩
      rw [hit] at returned
      cases returned

end Calls

def ascii (host : String) : Except ProtoError String := .ok host

/-- No descriptor is left for the persistent socket of the first attempt's resolver; every later
attempt would be answered. -/
def oneBroken (index : ℕ) : Course :=
  .worked (some {
    resolver := .v4 ⟨1, 1, 1, 1⟩ 53
    requestTimeoutNs := 1000000000
    persistentSocket := true
    connected := false
    bind := if index = 0 then .error "Too many open files (os error 24)" else .ok ()
    handshake := .ok ()
    reply := .response shortAnswer
    refetched := none })

/-- The first attempt ends the call, and each of the ten retries would have been
answered. -/
theorem broken_resolver_fails_query :
    ¬ GivesUpRightly labels (10 ^ 18) 10 freshClient
      (callOf ascii "example.com" 1 0 oneBroken fun index => index + 1) := by
  apply broken_setup_gives_up ascii labels (10 ^ 18) (fresh_unanswered _) (by decide : 0 < 10)
    (by decide)
  · intro earlier impossible
    exact absurd impossible (Nat.not_lt_zero earlier)
  · rfl

end BlastDns.EarlyFailure
