import BlastDns.Politeness

/-!
The cap on all queries in flight is only the number of workers, and the workers
are spawned by whichever handle finds its own cell empty. A clone made before
the first use carries an empty cell of its own over the shared pool, so the cap
and the single controller stand exactly as long as no handle runs its
initialiser to the end after another has.
-/

namespace BlastDns.GlobalCap

open Accounting Client Config Crew NetText Politeness Runs Worker

variable {n : ℕ} {Name : Type} {fromAscii : String → Except ProtoError Name}
variable {config : BlastDNSConfig}

def SystemSteps (fromAscii : String → Except ProtoError Name) (config : BlastDNSConfig)
    (before after : System n) : Prop :=
  ∃ action, systemStep fromAscii config before action = some after

theorem hire_accounted {dispatch : Dispatch n} {permits : ℕ} (accounted : Accounted permits dispatch)
    (workers : ℕ) : Accounted permits (hire dispatch (List.replicate workers .idle)) where
  permits i := by rw [hire_total, idle_marks workers (holds i) rfl, accounted.permits i, add_zero]
  outcomes i := by
    rw [hire_total, idle_marks workers (isInFlight i) rfl, accounted.outcomes i, add_zero]
  items responder := by
    rw [hire_total, idle_marks workers (carries responder) rfl, accounted.items responder, add_zero]

theorem dispatch_to_accounted {system after : System n} {event : Event n} {permits : ℕ}
    (stepped : dispatchTo fromAscii system event = some after)
    (accounted : Accounted permits system.dispatch) : Accounted permits after.dispatch := by
  rcases Option.map_eq_some_iff.mp stepped with ⟨dispatch, moved, same⟩
  subst same
  exact steps_accounted ⟨event, moved⟩ accounted

/-- Cloning and spawning, however often, never upset the accounts. -/
theorem system_step_accounted {system after : System n} {permits : ℕ}
    (stepped : SystemSteps fromAscii config system after)
    (accounted : Accounted permits system.dispatch) : Accounted permits after.dispatch := by
  rcases stepped with ⟨action, stepped⟩
  cases action with
  | clone handle =>
      rcases Option.map_eq_some_iff.mp stepped with ⟨cell, _, same⟩
      subst same
      exact accounted
  | startInit handle =>
      simp only [systemStep] at stepped
      split at stepped <;> cases stepped
      exact accounted
  | cancelInit handle =>
      simp only [systemStep] at stepped
      split at stepped <;> cases stepped
      exact accounted
  | finishInit handle =>
      simp only [systemStep] at stepped
      split at stepped <;> cases stepped
      exact hire_accounted accounted _
  | submit handle query =>
      simp only [systemStep] at stepped
      split at stepped
      · exact dispatch_to_accounted stepped accounted
      · cases stepped
  | worker index label => exact dispatch_to_accounted stepped accounted
  | around environment =>
      cases environment
      case enqueue => cases stepped
      all_goals exact dispatch_to_accounted stepped accounted

/-- Each entry keeps to its permits in every run of a client and its clones, also
where the cap on all of them does not hold. -/
theorem entries_bounded_in_every_run {client : BlastDNSClient}
    {system : System client.resolvers.length}
    (reached : Relation.ReflTransGen (SystemSteps fromAscii client.config) (newSystem client) system)
    (i : Fin client.resolvers.length) :
    inFlight system.dispatch i ≤ max client.config.maxInflightPerResolver 1 := by
  have accounted : Accounted (max client.config.maxInflightPerResolver 1) system.dispatch := by
    apply reachable_invariant (fun system : System client.resolvers.length =>
      Accounted (max client.config.maxInflightPerResolver 1) system.dispatch) _ reached
    · exact accounted_pool client.resolvers client.config client.queueCapacity 0
    · exact fun before after kept stepped => system_step_accounted stepped kept
  exact accounted_permits accounted i

/-- An initialiser is about to finish over workers that are already there. -/
def spawnsAgain (system : System n) : Action n → Bool
  | .finishInit _ => !system.dispatch.procs.isEmpty
  | _ => false

def soleSpawnStep (fromAscii : String → Except ProtoError Name) (config : BlastDNSConfig)
    (system : System n) (action : Action n) : Option (System n) :=
  if spawnsAgain system action then none else systemStep fromAscii config system action

def SoleSpawnSteps (fromAscii : String → Except ProtoError Name) (config : BlastDNSConfig)
    (before after : System n) : Prop :=
  ∃ action, soleSpawnStep fromAscii config before action = some after

/-- Nothing spawned and no handle used, or one crew and one controller. -/
inductive Spawned (config : BlastDNSConfig) (system : System n) : Prop
  | never (workers : system.dispatch.procs.length = 0) (controllers : system.controllers = 0)
      (unused : Cell.set ∉ system.handles)
  | once (workers : system.dispatch.procs.length = max config.maxConcurrency 1)
      (controllers : system.controllers = if config.adaptive then 1 else 0)

theorem clone_set {cell : Cell} (copied : cell.clone = .set) : cell = .set := by
  cases cell with
  | empty => cases copied
  | initialising => cases copied
  | set => rfl

theorem spawned_handles {system : System n} {handles : List Cell}
    (unset : Cell.set ∈ handles → Cell.set ∈ system.handles) (spawned : Spawned config system) :
    Spawned config { system with handles := handles } := by
  cases spawned with
  | never workers controllers unused =>
      exact .never workers controllers fun member => unused (unset member)
  | once workers controllers => exact .once workers controllers

theorem spawned_dispatch {system after : System n} {event : Event n}
    (stepped : dispatchTo fromAscii system event = some after) (spawned : Spawned config system) :
    Spawned config after := by
  rcases Option.map_eq_some_iff.mp stepped with ⟨dispatch, moved, same⟩
  have size : dispatch.procs.length = system.dispatch.procs.length := steps_length ⟨event, moved⟩
  subst same
  cases spawned with
  | never workers controllers unused => exact .never (size.trans workers) controllers unused
  | once workers controllers => exact .once (size.trans workers) controllers

theorem spawned_first {system : System n} {handles : List Cell}
    (none : system.dispatch.procs = []) (spawned : Spawned config system) :
    Spawned config (spawnAll config { system with handles := handles }) := by
  cases spawned with
  | never workers controllers unused =>
      apply Spawned.once
      · simp [spawnAll, hire, none]
      · simp [spawnAll, controllers]
  | once workers controllers =>
      rw [none, List.length_nil] at workers
      omega

theorem set_other {handles : List Cell} {handle : ℕ} {cell : Cell} (other : cell ≠ .set)
    (member : Cell.set ∈ handles.set handle cell) : Cell.set ∈ handles := by
  rcases List.mem_or_eq_of_mem_set member with old | new
  · exact old
  · exact absurd new.symm other

theorem sole_spawn_step {system after : System n} {action : Action n}
    (stepped : soleSpawnStep fromAscii config system action = some after)
    (spawned : Spawned config system) : Spawned config after := by
  rw [soleSpawnStep] at stepped
  split at stepped
  · cases stepped
  · rename_i first
    cases action with
    | clone handle =>
        rcases Option.map_eq_some_iff.mp stepped with ⟨cell, found, same⟩
        subst same
        apply spawned_handles _ spawned
        intro member
        -- a clone is set only if the handle it was made from is
        rcases List.mem_append.mp member with old | new
        · exact old
        · have copied := clone_set (List.mem_singleton.mp new).symm
          rw [copied] at found
          exact List.mem_of_getElem? found
    | startInit handle =>
        simp only [systemStep] at stepped
        split at stepped <;> cases stepped
        exact spawned_handles (set_other (by simp)) spawned
    | cancelInit handle =>
        simp only [systemStep] at stepped
        split at stepped <;> cases stepped
        exact spawned_handles (set_other (by simp)) spawned
    | finishInit handle =>
        simp only [systemStep] at stepped
        split at stepped <;> cases stepped
        exact spawned_first (by simpa [spawnsAgain] using first) spawned
    | submit handle query =>
        simp only [systemStep] at stepped
        split at stepped
        · exact spawned_dispatch stepped spawned
        · cases stepped
    | worker index label => exact spawned_dispatch stepped spawned
    | around environment =>
        cases environment
        case enqueue => cases stepped
        all_goals exact spawned_dispatch stepped spawned

/-- In every run in which the workers are spawned once, the cap on all queries in
flight holds and one controller drives the pool from the first use on. -/
theorem concurrency_capped (fromAscii : String → Except ProtoError Name) {host : Host}
    {texts : List String} {config : BlastDNSConfig} {client : BlastDNSClient}
    (accepted : withConfig host texts config = some (.ok client))
    (positive : 1 ≤ config.maxConcurrency) {system : System client.resolvers.length}
    (reached : Relation.ReflTransGen (SoleSpawnSteps fromAscii client.config) (newSystem client)
      system) :
    ∑ i, inFlight system.dispatch i ≤ config.maxConcurrency ∧
    (config.adaptive = true → Cell.set ∈ system.handles → system.controllers = 1) ∧
    system.controllers ≤ 1 := by
  rcases with_config_ok accepted with ⟨_, _, _, sameConfig, _⟩
  rw [sameConfig] at reached
  have spawned : Spawned config system := by
    apply reachable_invariant (Spawned config) _ reached
    · exact .never rfl rfl (by simp [newSystem])
    · rintro before after kept ⟨action, stepped⟩
      exact sole_spawn_step stepped kept
  have flying := in_flight_sum_le system.dispatch
  cases spawned with
  | never workers controllers unused =>
      rw [workers] at flying
      refine ⟨flying.trans (Nat.zero_le _), fun _ used => absurd used unused, ?_⟩
      rw [controllers]
      exact Nat.zero_le 1
  | once workers controllers =>
      rw [workers, max_eq_left positive] at flying
      refine ⟨flying, ?_, ?_⟩
      · intro adaptive _
        rw [controllers, adaptive]
        rfl
      · rw [controllers]
        split <;> simp

def narrowConfig : BlastDNSConfig := { maxConcurrency := 1 }

def narrowClient : BlastDNSClient := plainClient narrowConfig [sameAddress]

theorem concurrency_capped_clone :
    ∃ system : System 1,
      Relation.ReflTransGen (SoleSpawnSteps anyName narrowConfig) (newSystem narrowClient) system ∧
      system.handles = [.set, .set] ∧ ∑ i, inFlight system.dispatch i ≤ 1 ∧
      system.controllers = 1 := by
  let started : List (Action 1) :=
    [.startInit 0, .finishInit 0, .clone 0, .submit 1 ⟨"a.example", 1⟩]
  let sends : List (Action 1) := List.replicate 10 (.worker 0 .proceed)
  let actions := started ++ sends
  have done : (actions.foldlM (soleSpawnStep anyName narrowConfig) (newSystem narrowClient)).map
      (fun system => system.handles) = some [.set, .set] := by
    decide
  rcases Option.map_eq_some_iff.mp done with ⟨system, replayed, handles⟩
  have reached := replay_reaches replayed
  have capped := concurrency_capped anyName (plain_client_accepted rfl bare_texts rfl rfl) le_rfl
    reached
  exact ⟨system, reached, handles, capped.1, capped.2.1 rfl (by rw [handles]; simp)⟩

/-- A clone made before the first use, and both handles used: two queries in flight
where one is allowed, and two controllers over one pool. -/
theorem concurrency_cap_exceeded :
    withConfig plainHost ["1.1.1.1"] narrowConfig = some (.ok narrowClient) ∧
    narrowConfig.maxConcurrency = 1 ∧
    ∃ system : System 1,
      Relation.ReflTransGen (SystemSteps anyName narrowConfig) (newSystem narrowClient) system ∧
      ∑ i, inFlight system.dispatch i = 2 ∧ system.controllers = 2 := by
  let started : List (Action 1) :=
    [.clone 0, .startInit 0, .finishInit 0, .startInit 1, .finishInit 1]
  let first : Action 1 := .submit 0 ⟨"a.example", 1⟩
  let second : Action 1 := .submit 1 ⟨"b.example", 1⟩
  let sends (worker : ℕ) : List (Action 1) := List.replicate 10 (.worker worker .proceed)
  let actions := started ++ first :: sends 0 ++ second :: sends 1
  have done : (actions.foldlM (systemStep anyName narrowConfig) (newSystem narrowClient)).map
      (fun system => (∑ i, inFlight system.dispatch i, system.controllers)) = some (2, 2) := by
    decide
  rcases Option.map_eq_some_iff.mp done with ⟨system, replayed, counts⟩
  rcases Prod.mk.inj counts with ⟨flying, controllers⟩
  exact ⟨plain_client_accepted rfl bare_texts rfl rfl, rfl, system, replay_reaches replayed, flying,
    controllers⟩

end BlastDns.GlobalCap
