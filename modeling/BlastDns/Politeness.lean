import BlastDns.Client

/-!
The politeness bound is kept by one semaphore for each entry of the resolver
list, so it bounds what an address receives only as far as the list names each
address once. `with_config` accepts a list that does not: the same address may
come with and without its port.
-/

namespace BlastDns.Politeness

open Accounting Client Config Limiter NetText Resolvers Runs Worker

variable {n : ℕ} {Name : Type} {fromAscii : String → Except ProtoError Name}

def inFlightTo (state : Dispatch n) (address : SocketAddr) : ℕ :=
  ∑ i, if (state.shared.pool i).resolver = address then inFlight state i else 0

def NamedOnce (host : Host) (texts : List String) : Prop :=
  ∀ used, resolverTexts host texts = .ok used → (used.map parseResolver).Nodup

theorem parsed_all {texts : List String} {parsed : List SocketAddr}
    (done : texts.mapM parseResolver = .ok parsed) :
    texts.map parseResolver = parsed.map .ok := by
  induction texts generalizing parsed with
  | nil =>
      cases done
      rfl
  | cons text rest ih =>
      rw [List.mapM_cons] at done
      cases first : parseResolver text with
      | error err => simp [first, bind, Except.bind] at done
      | ok address =>
          cases others : rest.mapM parseResolver with
          | error err => simp [first, others, bind, Except.bind] at done
          | ok addresses =>
              simp only [first, others, bind, Except.bind, pure, Except.pure] at done
              cases done
              rw [List.map_cons, List.map_cons, first, ih others]

theorem named_once_distinct {host : Host} {texts : List String} {config : BlastDNSConfig}
    {client : BlastDNSClient} (accepted : withConfig host texts config = some (.ok client))
    (once : NamedOnce host texts) : client.resolvers.Nodup := by
  rcases with_config_ok accepted with ⟨used, chosen, parsed, _, _⟩
  have distinct := once used chosen
  rw [parsed_all parsed] at distinct
  exact distinct.of_map _

theorem reached_addresses {start state : Dispatch n}
    (reached : Relation.ReflTransGen (Steps fromAscii) start state) :
    ∀ i, (state.shared.pool i).resolver = (start.shared.pool i).resolver := by
  apply reachable_invariant (fun state =>
    ∀ i, (state.shared.pool i).resolver = (start.shared.pool i).resolver) _ reached
  · exact fun _ => rfl
  · intro before after kept stepped i
    rw [(dispatch_step_sums stepped).1 i, kept i]

theorem in_flight_to_le_all (state : Dispatch n) (address : SocketAddr) :
    inFlightTo state address ≤ ∑ i, inFlight state i := by
  apply Finset.sum_le_sum
  intro i _
  split
  · exact le_rfl
  · exact Nat.zero_le _

theorem in_flight_to_le_entry {state : Dispatch n} {address : SocketAddr} {bound : ℕ}
    (each : ∀ i, inFlight state i ≤ bound)
    (single : ∀ i j, (state.shared.pool i).resolver = address →
      (state.shared.pool j).resolver = address → i = j) :
    inFlightTo state address ≤ bound := by
  by_cases present : ∃ i, (state.shared.pool i).resolver = address
  · rcases present with ⟨i, here⟩
    have only : inFlightTo state address = inFlight state i := by
      rw [inFlightTo, Finset.sum_eq_single i]
      · rw [if_pos here]
      · intro j _ other
        exact if_neg fun there => other (single j i there here)
      · intro absent
        exact absurd (Finset.mem_univ i) absent
    rw [only]
    exact each i
  · have none : inFlightTo state address = 0 := by
      apply Finset.sum_eq_zero
      intro i _
      exact if_neg fun here => present ⟨i, here⟩
    rw [none]
    exact Nat.zero_le _

/-- In every run over a list that names each address once, or with no more workers
than the bound, no address has more than the bound in flight. -/
theorem politeness_bound_per_address (fromAscii : String → Except ProtoError Name) {host : Host}
    {texts : List String} {config : BlastDNSConfig} {client : BlastDNSClient}
    (accepted : withConfig host texts config = some (.ok client))
    (positive : 1 ≤ config.maxInflightPerResolver) (workers : ℕ)
    (polite : NamedOnce host texts ∨ workers ≤ config.maxInflightPerResolver)
    {state : Dispatch client.resolvers.length}
    (reached : Relation.ReflTransGen (Steps fromAscii)
      (newDispatch (newPool client.resolvers client.config) client.queueCapacity workers) state)
    (address : SocketAddr) :
    inFlightTo state address ≤ config.maxInflightPerResolver := by
  rcases with_config_ok accepted with ⟨_, _, _, sameConfig, _⟩
  have accounted := reached_accounted reached
    (accounted_pool client.resolvers client.config client.queueCapacity workers)
  rcases polite with once | few
  · have distinct := named_once_distinct accepted once
    have bound : max client.config.maxInflightPerResolver 1 = config.maxInflightPerResolver := by
      rw [sameConfig]
      exact max_eq_left positive
    rw [← bound]
    apply in_flight_to_le_entry (accounted_permits accounted)
    intro i j here there
    rw [reached_addresses reached] at here there
    have same : client.resolvers.get i = client.resolvers.get j := here.trans there.symm
    exact (List.nodup_iff_injective_get.mp distinct) same
  · -- then all workers together cannot exceed the bound
    have size := reached_length reached
    rw [newDispatch, List.length_replicate] at size
    calc inFlightTo state address ≤ ∑ i, inFlight state i := in_flight_to_le_all state address
      _ ≤ workers := by
          rw [← size]
          exact in_flight_sum_le state
      _ ≤ config.maxInflightPerResolver := few

/-- A system with no name servers of its own and room for a thousand descriptors. -/
def plainHost : Host := { nameServers := .ok [], nofileLimit := .ok 1024 }

def anyName : String → Except ProtoError Unit := fun _ => .ok ()

def sendSteps {n : ℕ} (worker : ℕ) : List (Event n) := List.replicate 10 (.worker worker .proceed)

def sameAddress : SocketAddr := .v4 ⟨1, 1, 1, 1⟩ 53

def politeConfig : BlastDNSConfig := { maxInflightPerResolver := 1, maxConcurrency := 2 }

/-- What `with_config` builds with per-query sockets and no rate limit. -/
def plainClient (config : BlastDNSConfig) (resolvers : List SocketAddr) : BlastDNSClient where
  resolvers := resolvers
  config := config
  queueCapacity := max config.maxConcurrency 1
  limiter := ⟨1⟩

theorem plain_client_accepted {config : BlastDNSConfig} {texts : List String}
    {parsed : List SocketAddr} (given : texts.isEmpty = false)
    (done : texts.mapM parseResolver = .ok parsed) (unlimited : config.rateLimit = none)
    (checked : checkLimits plainHost config parsed.length = .ok ()) :
    withConfig plainHost texts config = some (.ok (plainClient config parsed)) := by
  have limiter : RateLimiter.new (config.rateLimit.getD unlimitedQps) = some ⟨1⟩ := by
    rw [unlimited, Option.getD_none, RateLimiter.new, interval_for_pos unlimited_pos,
      unlimited_interval]
    rfl
  have all : resolverTexts plainHost texts >>= List.mapM parseResolver = .ok parsed := by
    rw [resolverTexts, given]
    exact done
  rw [withConfig, all]
  simp only [checked, limiter]
  rfl

theorem bare_text : parseResolver "1.1.1.1" = .ok sameAddress := by
  decide

theorem bare_texts : ["1.1.1.1"].mapM parseResolver = .ok [sameAddress] := by
  rw [List.mapM_cons, bare_text]
  rfl

theorem ported_text : parseResolver "1.1.1.1:53" = .ok sameAddress := by
  decide

/-- Named once, the address has one of two items in flight and the other waits. -/
theorem politeness_bound_per_address_once :
    ∃ state : Dispatch 1, Relation.ReflTransGen (Steps anyName)
        (newDispatch (newPool [sameAddress] politeConfig) 2 2) state ∧
      inFlight state 0 = 1 ∧ inFlightTo state sameAddress ≤ 1 := by
  have once : NamedOnce plainHost ["1.1.1.1"] := by
    intro used chosen
    cases chosen
    exact List.nodup_singleton _
  let events : List (Event 1) := .around (.enqueue ⟨"a.example", 1⟩) :: sendSteps 0
  let start : Dispatch 1 := newDispatch (newPool [sameAddress] politeConfig) 2 2
  have sent : (replay anyName events start).map (fun state => inFlight state 0) = some 1 := by
    decide
  rcases Option.map_eq_some_iff.mp sent with ⟨state, replayed, flying⟩
  have reached := replay_reaches replayed
  refine ⟨state, reached, flying, ?_⟩
  exact politeness_bound_per_address anyName (plain_client_accepted rfl bare_texts rfl rfl) le_rfl 2
    (Or.inl once) reached sameAddress

/-- The same address with and without its port: two queries in flight where one is
allowed. -/
theorem politeness_bound_exceeded :
    withConfig plainHost ["1.1.1.1", "1.1.1.1:53"] politeConfig =
      some (.ok (plainClient politeConfig [sameAddress, sameAddress])) ∧
    politeConfig.maxInflightPerResolver = 1 ∧
    ∃ state : Dispatch 2, Relation.ReflTransGen (Steps anyName)
        (newDispatch (newPool [sameAddress, sameAddress] politeConfig) 2 2) state ∧
      inFlightTo state sameAddress = 2 := by
  have parsed : ["1.1.1.1", "1.1.1.1:53"].mapM parseResolver = .ok [sameAddress, sameAddress] := by
    rw [List.mapM_cons, bare_text, List.mapM_cons, ported_text]
    rfl
  let events : List (Event 2) :=
    .around (.enqueue ⟨"a.example", 1⟩) :: .around (.enqueue ⟨"b.example", 1⟩) ::
      (sendSteps 0 ++ sendSteps 1)
  let start : Dispatch 2 := newDispatch (newPool [sameAddress, sameAddress] politeConfig) 2 2
  have sent : (replay anyName events start).map (fun state => inFlightTo state sameAddress) =
      some 2 := by
    decide
  rcases Option.map_eq_some_iff.mp sent with ⟨state, replayed, flying⟩
  exact ⟨plain_client_accepted rfl parsed rfl rfl, rfl, state, replay_reaches replayed, flying⟩

end BlastDns.Politeness
