import BlastDns.Drain

/-!
The startup probe. With `resolver_probe` an initialiser asks every entry of the pool
once before it spawns its workers, a bounded number of them at a time, and those that
do not answer are deactivated for good. A clone that is used for the first time later
probes the whole pool again, with the workers of others at work meanwhile.

Nothing but a failed probe deactivates an entry. An entry that failed before there
were workers is never handed to one, so it is never sent a query; and if they all
failed, every query is refused and none is sent.
-/

namespace BlastDns.Startup

open Accounting Client Config Crew Drain GlobalCap Handling Health NetText Politeness Runs Worker

variable {n : ℕ} {Name : Type}

/-- The probes of one initialiser. -/
structure Probing (n : ℕ) where
  unprobed : List (Fin n)
  flying : List (Fin n) := []
  answered : List (Fin n) := []
  failed : List (Fin n) := []

structure Opening (n : ℕ) where
  system : System n
  -- by handle, while its initialiser runs
  probes : ℕ → Option (Probing n) := fun _ => none
  -- every entry whose probe failed, by whichever initialiser
  failures : List (Fin n) := []

inductive Opens (n : ℕ) where
  | start (handle : ℕ)
  -- `buffer_unordered` takes the next probe
  | launch (handle : ℕ)
  | landed (handle : ℕ) (resolver : Fin n) (alive : Bool)
  | cancel (handle : ℕ)
  | finish (handle : ℕ)
  | system (action : Action n)

section Steps

variable (fromAscii : String → Except ProtoError Name) (config : BlastDNSConfig)

def Opening.probe (opening : Opening n) (handle : ℕ) (probing : Option (Probing n)) : Opening n :=
  { opening with probes := Function.update opening.probes handle probing }

def systemTo (opening : Opening n) (action : Action n) : Option (Opening n) :=
  (systemStep fromAscii config opening.system action).map fun system =>
    { opening with system := system }

def openStep (opening : Opening n) : Opens n → Option (Opening n)
  | .start handle =>
      let unprobed := if config.resolverProbe then List.finRange n else []
      systemTo fromAscii config (opening.probe handle (some { unprobed := unprobed }))
        (.startInit handle)
  | .launch handle =>
      (opening.probes handle).bind fun probing =>
        match probing.unprobed with
        | [] => none
        | i :: rest =>
            if probing.flying.length < max config.maxConcurrency 1 then
              some (opening.probe handle
                (some { probing with unprobed := rest, flying := probing.flying ++ [i] }))
            else none
  | .landed handle i alive =>
      (opening.probes handle).bind fun probing =>
        if i ∈ probing.flying then
          let flying := probing.flying.erase i
          if alive then
            some (opening.probe handle
              (some { probing with flying := flying, answered := probing.answered ++ [i] }))
          else
            systemTo fromAscii config
              { opening.probe handle
                  (some { probing with flying := flying, failed := probing.failed ++ [i] }) with
                failures := opening.failures ++ [i] }
              (.around (.probeFailed i))
        else none
  -- the probes live in the caller and are dropped with it
  | .cancel handle => systemTo fromAscii config (opening.probe handle none) (.cancelInit handle)
  | .finish handle =>
      (opening.probes handle).bind fun probing =>
        if probing.unprobed.isEmpty && probing.flying.isEmpty then
          systemTo fromAscii config (opening.probe handle none) (.finishInit handle)
        else none
  -- an initialiser and its probes have steps of their own
  | .system (.startInit _) | .system (.cancelInit _) | .system (.finishInit _)
  | .system (.around (.probeFailed _)) => none
  | .system action => systemTo fromAscii config opening action

def OpenSteps (before after : Opening n) : Prop :=
  ∃ event, openStep fromAscii config before event = some after

def newOpening (client : BlastDNSClient) : Opening client.resolvers.length where
  system := newSystem client

end Steps

section Workers

/-- The worker holds or waits for this entry, or has it among its choices. -/
def mentions (i : Fin n) : Phase n → Bool
  | .working _ (.visiting scan) => scan.waitable = some i
  | .working _ (.checking scan j) | .working _ (.trying scan j) =>
      j = i || scan.waitable = some i
  | .working _ (.waiting j) | .working _ (.holding j _) | .releasing j => j = i
  | _ => false

/-- What a worker's step does to the entries: it deactivates none, and leaves alone those
that are inactive and that it does not know. -/
structure Spares (shared after : Shared n) (old new : Phase n) : Prop where
  active : ∀ i, (after.pool i).active = (shared.pool i).active
  dead : ∀ i, (shared.pool i).active = false → mentions i old = false →
    after.pool i = shared.pool i ∧ mentions i new = false

theorem set_resolver_spares {shared : Shared n} {j : Fin n} {health : ResolverHealth}
    {old new : Phase n} (same : health.active = (shared.pool j).active)
    (mine : mentions j old = true)
    (next : ∀ i, i ≠ j → mentions i old = false → mentions i new = false) :
    Spares shared (shared.setResolver j health) old new := by
  constructor
  · intro i
    by_cases here : i = j
    · subst here
      simpa [Shared.setResolver] using same
    · simp [Shared.setResolver, Function.update_of_ne here]
  · intro i _ unknown
    have apart : i ≠ j := by
      rintro rfl
      exact absurd (mine.symm.trans unknown) (by decide)
    exact ⟨by simp [Shared.setResolver, Function.update_of_ne apart], next i apart unknown⟩

theorem same_pool_spares {shared after : Shared n} {old new : Phase n}
    (same : after.pool = shared.pool)
    (next : ∀ i, (shared.pool i).active = false → mentions i old = false →
      mentions i new = false) :
    Spares shared after old new where
  active _ := by rw [same]
  dead i inactive unknown := ⟨by rw [same], next i inactive unknown⟩

variable {fromAscii : String → Except ProtoError Name}
variable {shared after : Shared n} {item : WorkItem} {new : Phase n}

theorem after_scan_spares (shared : Shared n) (item : WorkItem) (scan : Scan n) :
    Spares shared (afterScan shared item scan).1 (.working item (.visiting scan))
      (afterScan shared item scan).2 := by
  unfold afterScan
  split
  · exact same_pool_spares rfl fun _ _ _ => rfl
  · split
    · exact same_pool_spares rfl fun _ _ _ => rfl
    · split
      · rename_i j waits
        refine same_pool_spares rfl ?_
        intro i _ unknown
        simpa [mentions, waits] using unknown
      · exact same_pool_spares rfl fun _ _ _ => rfl

theorem acquired_active {health next : ResolverHealth} (acquired : health.tryAcquire = some next) :
    next.active = health.active := by
  unfold ResolverHealth.tryAcquire at acquired
  split at acquired <;> cases acquired
  rfl

theorem stage_step_spares {stage : Stage n}
    (stepped : stageStep fromAscii shared item stage = some (after, new)) :
    Spares shared after (.working item stage) new := by
  cases stage with
  | received =>
      simp only [stageStep] at stepped
      split at stepped <;> cases stepped
      · exact same_pool_spares rfl fun _ _ _ => rfl
      · exact same_pool_spares rfl fun _ _ _ => rfl
  | pacing =>
      cases stepped
      exact same_pool_spares rfl fun _ _ _ => rfl
  | reserving =>
      simp only [stageStep] at stepped
      split at stepped <;> cases stepped
      · exact same_pool_spares rfl fun _ _ _ => rfl
      · exact same_pool_spares rfl fun _ _ _ => rfl
  | visiting scan =>
      simp only [stageStep] at stepped
      split at stepped
      · rename_i room
        split at stepped
        · rename_i alive
          cases stepped
          refine same_pool_spares rfl ?_
          intro i inactive unknown
          -- the entry looked at is active
          have apart : Shared.selected scan (Nat.zero_lt_of_lt room) ≠ i := by
            rintro rfl
            exact absurd (alive.symm.trans inactive) (by decide)
          simpa [mentions, apart] using unknown
        · cases stepped
          exact same_pool_spares rfl fun _ _ unknown => unknown
      · have spared := after_scan_spares shared item scan
        rwa [Option.some.inj stepped] at spared
  | checking scan j =>
      simp only [stageStep] at stepped
      split at stepped <;> cases stepped
      · refine same_pool_spares rfl ?_
        intro i _ unknown
        simp only [mentions, Bool.or_eq_false_iff] at unknown ⊢
        exact unknown.2
      · exact same_pool_spares rfl fun _ _ unknown => unknown
  | trying scan j =>
      simp only [stageStep] at stepped
      split at stepped
      · rename_i health acquired
        cases stepped
        refine set_resolver_spares (acquired_active acquired) (by simp [mentions]) ?_
        intro i apart _
        simp [mentions, Ne.symm apart]
      · cases stepped
        refine same_pool_spares rfl ?_
        intro i _ unknown
        simp only [mentions, Bool.or_eq_false_iff, decide_eq_false_iff_not] at unknown ⊢
        cases waits : scan.waitable with
        | none => simpa using unknown.1
        | some k => simpa [waits] using unknown.2
  | sleeping untilNs =>
      simp only [stageStep] at stepped
      split at stepped <;> cases stepped
      exact same_pool_spares rfl fun _ _ _ => rfl
  | waiting j =>
      rcases Option.map_eq_some_iff.mp stepped with ⟨health, acquired, same⟩
      cases same
      refine set_resolver_spares (acquired_active acquired) (by simp [mentions]) ?_
      intro i apart _
      simp [mentions, Ne.symm apart]
  | holding j hold => cases stepped

theorem record_answer_active (health : ResolverHealth) (nowNs startedNs : ℕ)
    (response : DnsResponse) :
    (recordAnswer health nowNs startedNs response).active = health.active := by
  unfold recordAnswer ResolverHealth.recordResponse ResolverHealth.recordRtt
  dsimp only [ResolverHealth.decayErrors]
  split_ifs <;> rfl

theorem record_error_active (health : ResolverHealth) (isTimeout : Bool) (nowNs : ℕ) :
    (health.recordError isTimeout nowNs).active = health.active := by
  unfold ResolverHealth.recordError
  dsimp only
  split_ifs <;> rfl

theorem hold_step_active {health next : ResolverHealth} {nowNs : ℕ} {hold : Hold} {label : Label}
    {held : Held} (stepped : holdStep health nowNs hold label = some (next, held)) :
    next.active = health.active := by
  unfold holdStep at stepped
  split at stepped
  case h_7 =>
    split at stepped <;> cases stepped
    · rfl
    · exact record_answer_active _ _ _ _
  case h_8 =>
    cases stepped
    exact record_error_active _ _ _
  case h_10 =>
    cases stepped
    exact record_answer_active _ _ _ _
  all_goals
    cases stepped
    try rfl

theorem held_step_spares {j : Fin n} {hold : Hold} {label : Label}
    (stepped : workerStep fromAscii shared (.working item (.holding j hold)) label =
      some (after, new)) :
    Spares shared after (.working item (.holding j hold)) new := by
  rcases Option.map_eq_some_iff.mp stepped with ⟨⟨health, held⟩, moved, same⟩
  have active := hold_step_active moved
  cases held with
  | keep next =>
      cases same
      refine set_resolver_spares active (by simp [mentions]) ?_
      exact fun i _ unknown => unknown
  | drop =>
      cases same
      refine set_resolver_spares active (by simp [mentions]) ?_
      exact fun i _ _ => rfl
  | respond result =>
      cases same
      have spares : Spares shared (shared.setResolver j health)
          (.working item (.holding j hold)) (.releasing j) :=
        set_resolver_spares active (by simp [mentions]) fun i _ unknown => unknown
      exact ⟨spares.active, spares.dead⟩

theorem worker_step_spares {old : Phase n} {label : Label}
    (stepped : workerStep fromAscii shared old label = some (after, new)) :
    Spares shared after old new := by
  cases old with
  | idle =>
      cases label with
      | proceed =>
          simp only [workerStep] at stepped
          split at stepped
          · cases stepped
            exact same_pool_spares rfl fun _ _ _ => rfl
          · split at stepped <;> cases stepped
            exact same_pool_spares rfl fun _ _ _ => rfl
      | answer result => cases stepped
      | refetched full => cases stepped
  | stopped => cases stepped
  | working item stage =>
      cases stage
      case holding j hold => exact held_step_spares stepped
      all_goals
        cases label
        · rw [worker_step_unheld rfl] at stepped
          exact stage_step_spares stepped
        · cases stepped
        · cases stepped
  | releasing j =>
      cases label <;> cases stepped
      refine set_resolver_spares rfl (by simp [mentions]) ?_
      exact fun i _ _ => rfl

end Workers

section Systems

variable {fromAscii : String → Except ProtoError Name} {config : BlastDNSConfig}
variable {system after : System n} {action : Action n}

/-- An inactive entry that no worker knows of and that was never sent a query. -/
structure Shunned (i : Fin n) (system : System n) : Prop where
  inactive : (system.dispatch.shared.pool i).active = false
  unasked : (system.dispatch.shared.pool i).attempted = 0
  unknown : ∀ phase ∈ system.dispatch.procs, mentions i phase = false

theorem environment_step_entry {shared next : Shared n} {environment : Environment n}
    (stepped : environmentStep shared environment = some next) (i : Fin n) :
    (next.pool i).attempted = (shared.pool i).attempted ∧
      ((next.pool i).active = (shared.pool i).active ∨
        environment = .probeFailed i ∧ (next.pool i).active = false) := by
  cases environment with
  | enqueue query =>
      simp only [environmentStep] at stepped
      split at stepped <;> cases stepped
      exact ⟨rfl, .inl rfl⟩
  | close =>
      cases stepped
      exact ⟨rfl, .inl rfl⟩
  | elapse nanos =>
      cases stepped
      exact ⟨rfl, .inl rfl⟩
  | probeFailed j =>
      cases stepped
      by_cases here : i = j
      · subst here
        rw [set_resolver_same]
        exact ⟨rfl, .inr ⟨rfl, rfl⟩⟩
      · simp [Shared.setResolver, Function.update_of_ne here]
  | setRate j queriesPerSecond =>
      rcases Option.map_eq_some_iff.mp stepped with ⟨limiter, _, rfl⟩
      by_cases here : i = j
      · subst here
        rw [set_resolver_same]
        exact ⟨rfl, .inl rfl⟩
      · simp [Shared.setResolver, Function.update_of_ne here]

/-- A step of the system: fresh workers, a move of a worker, or one of the surroundings. -/
theorem system_step_crew (stepped : systemStep fromAscii config system action = some after) :
    (after.dispatch.shared = system.dispatch.shared ∧ ∃ fresh : List (Phase n),
      (∀ phase ∈ fresh, phase = .idle) ∧
        after.dispatch.procs = system.dispatch.procs ++ fresh) ∨
    (∃ index label, act (workerStep fromAscii) system.dispatch index label = some after.dispatch) ∨
    ∃ environment, environmentStep system.dispatch.shared environment =
        some after.dispatch.shared ∧ after.dispatch.procs = system.dispatch.procs ∧
      ∀ i, environment = .probeFailed i → action = .around (.probeFailed i) := by
  cases action with
  | clone handle =>
      rcases Option.map_eq_some_iff.mp stepped with ⟨cell, _, rfl⟩
      exact .inl ⟨rfl, [], by simp, by simp⟩
  | startInit handle =>
      simp only [systemStep] at stepped
      split at stepped <;> cases stepped
      exact .inl ⟨rfl, [], by simp, by simp⟩
  | cancelInit handle =>
      simp only [systemStep] at stepped
      split at stepped <;> cases stepped
      exact .inl ⟨rfl, [], by simp, by simp⟩
  | finishInit handle =>
      simp only [systemStep] at stepped
      split at stepped <;> cases stepped
      exact .inl ⟨rfl, _, fun _ member => List.eq_of_mem_replicate member, rfl⟩
  | submit handle query =>
      simp only [systemStep] at stepped
      split at stepped
      · rcases Option.map_eq_some_iff.mp stepped with ⟨dispatch, enqueued, rfl⟩
        rcases Option.map_eq_some_iff.mp enqueued with ⟨shared, moved, rfl⟩
        exact .inr (.inr ⟨_, moved, rfl, by simp⟩)
      · cases stepped
  | worker index label =>
      rcases Option.map_eq_some_iff.mp stepped with ⟨dispatch, moved, rfl⟩
      exact .inr (.inl ⟨index, label, moved⟩)
  | around environment =>
      have dispatched : dispatchTo fromAscii system (.around environment) = some after := by
        cases environment
        case enqueue => cases stepped
        all_goals exact stepped
      rcases Option.map_eq_some_iff.mp dispatched with ⟨dispatch, around, rfl⟩
      rcases Option.map_eq_some_iff.mp around with ⟨shared, moved, rfl⟩
      refine .inr (.inr ⟨environment, moved, rfl, ?_⟩)
      rintro i rfl
      rfl

/-- Only a failed probe deactivates an entry, and nothing activates one. -/
theorem system_step_active (stepped : systemStep fromAscii config system action = some after)
    (i : Fin n) :
    (after.dispatch.shared.pool i).active = (system.dispatch.shared.pool i).active ∨
      action = .around (.probeFailed i) ∧ (after.dispatch.shared.pool i).active = false := by
  rcases system_step_crew stepped with ⟨same, _⟩ | ⟨index, label, acted⟩ |
    ⟨environment, moved, _, source⟩
  · exact .inl (by rw [same])
  · rcases act_some acted with ⟨_, _, _, _, moved, same⟩
    rw [same]
    exact .inl ((worker_step_spares moved).active i)
  · rcases (environment_step_entry moved i).2 with kept | ⟨failed, dead⟩
    · exact .inl kept
    · exact .inr ⟨source i failed, dead⟩

theorem system_step_shunned {i : Fin n}
    (stepped : systemStep fromAscii config system action = some after) (shunned : Shunned i system) :
    Shunned i after := by
  have inactive : (after.dispatch.shared.pool i).active = false := by
    rcases system_step_active stepped i with kept | ⟨_, dead⟩
    · exact kept.trans shunned.inactive
    · exact dead
  rcases system_step_crew stepped with ⟨same, fresh, idle, hired⟩ | ⟨index, label, acted⟩ |
    ⟨environment, moved, procs, _⟩
  · refine ⟨inactive, same ▸ shunned.unasked, ?_⟩
    intro phase member
    rw [hired] at member
    rcases List.mem_append.mp member with before | new
    · exact shunned.unknown phase before
    · rw [idle phase new]
      rfl
  · rcases act_some acted with ⟨old, shared, new, found, moved, same⟩
    have spared := (worker_step_spares moved).dead i shunned.inactive
      (shunned.unknown old (List.mem_of_getElem? found))
    refine ⟨inactive, ?_, ?_⟩
    · rw [same]
      dsimp only
      rw [spared.1]
      exact shunned.unasked
    · rw [same]
      intro phase member
      rcases List.mem_or_eq_of_mem_set member with before | rfl
      · exact shunned.unknown phase before
      · exact spared.2
  · refine ⟨inactive, (environment_step_entry moved i).1.trans shunned.unasked, ?_⟩
    rw [procs]
    exact shunned.unknown

/-- Before there are workers nothing is sent, and nothing answered. -/
def Untouched (system : System n) : Prop :=
  system.dispatch.procs = [] → system.dispatch.shared.sent = [] ∧
    ∀ i, (system.dispatch.shared.pool i).attempted = 0

theorem system_step_untouched (stepped : systemStep fromAscii config system action = some after)
    (untouched : Untouched system) : Untouched after := by
  intro nobody
  rcases system_step_crew stepped with ⟨same, fresh, _, hired⟩ | ⟨index, label, acted⟩ |
    ⟨environment, moved, procs, _⟩
  · rw [same]
    exact untouched (List.append_eq_nil_iff.mp (hired.symm.trans nobody)).1
  · have size := act_length acted
    rcases act_some acted with ⟨old, _, _, found, _, _⟩
    rw [nobody, List.length_nil] at size
    rw [List.length_eq_zero_iff.mp size.symm] at found
    cases found
  · rcases untouched (procs ▸ nobody) with ⟨sent, unasked⟩
    refine ⟨?_, fun i => (environment_step_entry moved i).1.trans (unasked i)⟩
    cases environment_step_surrounds moved with
    | enqueues _ _ same =>
        rw [same]
        exact sent
    | leaves _ _ same => exact same.trans sent

/-- Nothing was answered but refusals. -/
def Refused (fromAscii : String → Except ProtoError Name) (system : System n) : Prop :=
  ∀ answer ∈ system.dispatch.shared.sent,
    ∃ query err, answer.2 = .error err ∧ Refusal fromAscii query err

theorem system_step_refused (stepped : systemStep fromAscii config system action = some after)
    (shunned : ∀ i, Shunned i system) (refused : Refused fromAscii system) :
    Refused fromAscii after := by
  rcases system_step_crew stepped with ⟨same, _⟩ | ⟨index, label, acted⟩ |
    ⟨environment, moved, _, _⟩
  · rw [Refused, same]
    exact refused
  · rcases act_some acted with ⟨old, shared, new, found, moved, same⟩
    rw [Refused, same]
    have unknown := fun i => (shunned i).unknown old (List.mem_of_getElem? found)
    cases (worker_step_handles moved).1 with
    | receives _ sent => exact sent ▸ refused
    | stops _ _ unchanged => exact unchanged ▸ refused
    | works _ sent => exact sent ▸ refused
    | refuses why _ sent =>
        dsimp only
        rw [sent]
        intro answer member
        rcases List.mem_append.mp member with before | here
        · exact refused answer before
        · rw [List.mem_singleton.mp here]
          exact ⟨_, _, rfl, why⟩
    | @answers item i result _ sent =>
        have known := unknown i
        simp [mentions] at known
    | releases _ sent => exact sent ▸ refused
  · cases environment_step_surrounds moved with
    | enqueues _ _ same =>
        rw [Refused, same]
        exact refused
    | leaves _ _ same =>
        rw [Refused, same]
        exact refused

end Systems

section Openings

variable {fromAscii : String → Except ProtoError Name} {config : BlastDNSConfig}
variable {opening after : Opening n} {event : Opens n}

/-- The books of one initialiser, with the failures of all of them. -/
structure Sound (config : BlastDNSConfig) (failures : List (Fin n)) (probing : Probing n) :
    Prop where
  all : (probing.unprobed ++ probing.flying ++ probing.answered ++ probing.failed).Perm
    (if config.resolverProbe then List.finRange n else [])
  bounded : probing.flying.length ≤ max config.maxConcurrency 1
  failed : ∀ i ∈ probing.failed, i ∈ failures

structure Probed (config : BlastDNSConfig) (opening : Opening n) : Prop where
  active : ∀ i, (opening.system.dispatch.shared.pool i).active = false ↔ i ∈ opening.failures
  probing : ∀ handle probing, opening.probes handle = some probing →
    Sound config opening.failures probing

theorem probe_sound {failures : List (Fin n)} {handle : ℕ} {changed : Option (Probing n)}
    (others : ∀ handle probing, opening.probes handle = some probing →
      Sound config failures probing)
    (mine : ∀ probing, changed = some probing → Sound config failures probing) :
    ∀ other probing, (opening.probe handle changed).probes other = some probing →
      Sound config failures probing := by
  intro other probing found
  simp only [Opening.probe, Function.update_apply] at found
  split at found
  · exact mine probing found
  · exact others other probing found

theorem system_to_some {action : Action n}
    (stepped : systemTo fromAscii config opening action = some after) :
    ∃ system, systemStep fromAscii config opening.system action = some system ∧
      after = { opening with system := system } := by
  rcases Option.map_eq_some_iff.mp stepped with ⟨system, moved, same⟩
  exact ⟨system, moved, same.symm⟩

/-- A step of the system that is no failed probe leaves the books as they are. -/
theorem system_to_probed {action : Action n}
    (stepped : systemTo fromAscii config opening action = some after)
    (probes : ∀ i, action ≠ .around (.probeFailed i)) (probed : Probed config opening) :
    Probed config after := by
  rcases system_to_some stepped with ⟨system, moved, rfl⟩
  refine ⟨?_, probed.probing⟩
  intro i
  rcases system_step_active moved i with kept | ⟨failed, _⟩
  · rw [kept]
    exact probed.active i
  · exact absurd failed (probes i)

theorem sound_launch {failures : List (Fin n)} {probing : Probing n} {i : Fin n}
    {rest : List (Fin n)} (next : probing.unprobed = i :: rest)
    (room : probing.flying.length < max config.maxConcurrency 1)
    (sound : Sound config failures probing) :
    Sound config failures
      { probing with unprobed := rest, flying := probing.flying ++ [i] } := by
  refine ⟨?_, ?_, sound.failed⟩
  · refine List.Perm.trans (List.perm_iff_count.mpr ?_) sound.all
    intro j
    simp only [next, List.count_append, List.count_cons, List.count_nil]
    omega
  · rw [List.length_append, List.length_singleton]
    exact room

theorem sound_landed {failures : List (Fin n)} {probing : Probing n} {i : Fin n}
    (flies : i ∈ probing.flying) (sound : Sound config failures probing)
    {answered failed : List (Fin n)}
    (books : ∀ j, answered.count j + failed.count j =
      probing.answered.count j + probing.failed.count j + if i = j then 1 else 0)
    (known : ∀ j ∈ failed, j ∈ failures) :
    Sound config failures { probing with
      flying := probing.flying.erase i, answered := answered, failed := failed } := by
  refine ⟨?_, ?_, known⟩
  · refine List.Perm.trans (List.perm_iff_count.mpr ?_) sound.all
    intro j
    have some := List.count_pos_iff.mpr flies
    have booked := books j
    simp only [List.count_append, List.count_erase, beq_iff_eq]
    split_ifs at booked ⊢ with same
    · subst same
      omega
    · omega
  · exact (List.length_erase_le).trans sound.bounded

theorem sound_grows {failures : List (Fin n)} {probing : Probing n} (i : Fin n)
    (sound : Sound config failures probing) : Sound config (failures ++ [i]) probing :=
  ⟨sound.all, sound.bounded, fun j member => List.mem_append_left _ (sound.failed j member)⟩

theorem failed_probed {handle : ℕ} {i : Fin n} {probing : Probing n}
    (found : opening.probes handle = some probing) (flies : i ∈ probing.flying)
    (stepped : systemTo fromAscii config
      { opening.probe handle (some { probing with
          flying := probing.flying.erase i, failed := probing.failed ++ [i] }) with
        failures := opening.failures ++ [i] } (.around (.probeFailed i)) = some after)
    (probed : Probed config opening) : Probed config after := by
  rcases system_to_some stepped with ⟨system, moved, rfl⟩
  cases moved
  refine ⟨?_, ?_⟩
  · intro j
    by_cases here : j = i
    · subst here
      simp [Shared.setResolver]
    · simp only [Shared.setResolver, Opening.probe, Function.update_of_ne here, List.mem_append,
        List.mem_singleton, here, or_false]
      exact probed.active j
  · have grown := fun handle probing found => sound_grows i (probed.probing handle probing found)
    refine probe_sound grown ?_
    rintro _ ⟨⟩
    refine sound_landed flies (grown handle probing found) ?_ ?_
    · intro j
      simp only [List.count_append, List.count_singleton, beq_iff_eq]
      omega
    · intro j member
      rcases List.mem_append.mp member with before | here
      · exact List.mem_append_left _ ((probed.probing handle probing found).failed j before)
      · exact List.mem_append_right _ here

theorem open_step_probed (stepped : OpenSteps fromAscii config opening after)
    (probed : Probed config opening) : Probed config after := by
  rcases stepped with ⟨event, stepped⟩
  have changed : ∀ (handle : ℕ) (changed : Option (Probing n)),
      (∀ probing, changed = some probing → Sound config opening.failures probing) →
      Probed config (opening.probe handle changed) := fun handle changed mine =>
    ⟨probed.active, probe_sound probed.probing mine⟩
  cases event with
  | start handle =>
      refine system_to_probed stepped (by simp) (changed handle _ ?_)
      rintro _ ⟨⟩
      exact ⟨by simp, Nat.zero_le _, by simp⟩
  | launch handle =>
      rcases Option.bind_eq_some_iff.mp stepped with ⟨probing, found, launched⟩
      split at launched
      · cases launched
      · rename_i i rest next
        split at launched <;> cases launched
        rename_i room
        refine changed handle _ ?_
        rintro _ ⟨⟩
        exact sound_launch next room (probed.probing handle probing found)
  | landed handle i alive =>
      rcases Option.bind_eq_some_iff.mp stepped with ⟨probing, found, landed⟩
      split at landed
      swap
      · cases landed
      rename_i flies
      cases alive with
      | true =>
          cases landed
          refine changed handle _ ?_
          rintro _ ⟨⟩
          have sound := probed.probing handle probing found
          refine sound_landed flies sound ?_ sound.failed
          intro j
          simp only [List.count_append, List.count_singleton, beq_iff_eq]
          omega
      | false => exact failed_probed found flies landed probed
  | cancel handle => exact system_to_probed stepped (by simp) (changed handle none (by simp))
  | finish handle =>
      rcases Option.bind_eq_some_iff.mp stepped with ⟨probing, _, finished⟩
      split at finished
      · exact system_to_probed finished (by simp) (changed handle none (by simp))
      · cases finished
  | system action =>
      have direct : systemTo fromAscii config opening action = some after ∧
          ∀ i, action ≠ .around (.probeFailed i) := by
        cases action
        case startInit => cases stepped
        case cancelInit => cases stepped
        case finishInit => cases stepped
        case around environment =>
          cases environment
          case probeFailed => cases stepped
          all_goals exact ⟨stepped, by simp⟩
        all_goals exact ⟨stepped, by simp⟩
      exact system_to_probed direct.1 direct.2 probed

/-- Under an opening's step the system stands still or takes a step of its own. -/
theorem open_step_system (stepped : OpenSteps fromAscii config opening after) :
    after.system = opening.system ∨
      ∃ action, systemStep fromAscii config opening.system action = some after.system := by
  rcases stepped with ⟨event, stepped⟩
  have moves : ∀ {before : Opening n} {action : Action n},
      systemTo fromAscii config before action = some after → before.system = opening.system →
      after.system = opening.system ∨
        ∃ action, systemStep fromAscii config opening.system action = some after.system := by
    intro before action taken same
    rcases system_to_some taken with ⟨system, moved, rfl⟩
    exact .inr ⟨action, same ▸ moved⟩
  cases event with
  | start handle => exact moves stepped rfl
  | launch handle =>
      rcases Option.bind_eq_some_iff.mp stepped with ⟨probing, _, launched⟩
      split at launched
      · cases launched
      · split at launched <;> cases launched
        exact .inl rfl
  | landed handle i alive =>
      rcases Option.bind_eq_some_iff.mp stepped with ⟨probing, _, landed⟩
      split at landed
      swap
      · cases landed
      cases alive with
      | true =>
          cases landed
          exact .inl rfl
      | false => exact moves landed rfl
  | cancel handle => exact moves stepped rfl
  | finish handle =>
      rcases Option.bind_eq_some_iff.mp stepped with ⟨probing, _, finished⟩
      split at finished
      · exact moves finished rfl
      · cases finished
  | system action =>
      cases action
      case startInit => cases stepped
      case cancelInit => cases stepped
      case finishInit => cases stepped
      case around environment =>
        cases environment
        case probeFailed => cases stepped
        all_goals exact moves stepped rfl
      all_goals exact moves stepped rfl

theorem reached_probed {client : BlastDNSClient} {opening : Opening client.resolvers.length}
    (reached : Relation.ReflTransGen (OpenSteps fromAscii client.config) (newOpening client)
      opening) :
    Probed client.config opening ∧ Untouched opening.system := by
  refine reachable_invariant
    (fun opening => Probed client.config opening ∧ Untouched opening.system) ?_ reached ?_
  · rintro before after ⟨probed, untouched⟩ stepped
    refine ⟨open_step_probed stepped probed, ?_⟩
    rcases open_step_system stepped with same | ⟨action, moved⟩
    · exact same ▸ untouched
    · exact system_step_untouched moved untouched
  · refine ⟨⟨?_, by simp [newOpening]⟩, ?_⟩
    · intro i
      simp [newOpening, newSystem, newDispatch, newPool, newHealth]
    · exact fun _ => ⟨rfl, fun _ => rfl⟩

end Openings

/-- The entries that are left after a probe. -/
def activeCount (system : System n) : ℕ :=
  (List.finRange n).countP fun i => (system.dispatch.shared.pool i).active

/-- However many initialisers probe the pool, with whatever workers beside them and with
answers in any order: an entry is inactive exactly if a probe of it has failed; no
initialiser has more probes under way than it may; and one that is through has asked
every entry once, with at most as many active as answered it, and exactly as many if
nobody else has seen a failure. -/
theorem probe_decides_activity (fromAscii : String → Except ProtoError Name)
    {client : BlastDNSClient} {opening : Opening client.resolvers.length}
    (reached : Relation.ReflTransGen (OpenSteps fromAscii client.config) (newOpening client)
      opening) :
    (∀ i, (opening.system.dispatch.shared.pool i).active = false ↔ i ∈ opening.failures) ∧
    ∀ handle probing, opening.probes handle = some probing →
      probing.flying.length ≤ max client.config.maxConcurrency 1 ∧
      (client.config.resolverProbe = true → probing.unprobed = [] → probing.flying = [] →
        (probing.answered ++ probing.failed).Perm (List.finRange client.resolvers.length) ∧
        activeCount opening.system ≤ probing.answered.length ∧
        (opening.failures ⊆ probing.failed →
          activeCount opening.system = probing.answered.length)) := by
  rcases reached_probed reached with ⟨probed, _⟩
  refine ⟨probed.active, ?_⟩
  intro handle probing found
  have sound := probed.probing handle probing found
  refine ⟨sound.bounded, ?_⟩
  intro probes unprobed flying
  have all := sound.all
  rw [unprobed, flying, if_pos probes] at all
  have once : (probing.answered ++ probing.failed).Perm
      (List.finRange client.resolvers.length) := all
  have apart := List.nodup_append.mp (once.nodup_iff.mpr (List.nodup_finRange _))
  have dead : probing.failed.countP
      (fun i => (opening.system.dispatch.shared.pool i).active) = 0 := by
    apply List.countP_eq_zero.mpr
    intro i member
    rw [(probed.active i).mpr (sound.failed i member)]
    decide
  have count : activeCount opening.system = probing.answered.countP
      fun i => (opening.system.dispatch.shared.pool i).active := by
    rw [activeCount, ← once.countP_eq, List.countP_append, dead, Nat.add_zero]
  refine ⟨once, count.trans_le List.countP_le_length, ?_⟩
  intro alone
  rw [count]
  apply List.countP_eq_length.mpr
  intro i member
  cases active : (opening.system.dispatch.shared.pool i).active with
  | true => rfl
  | false =>
      have failed := alone ((probed.active i).mp active)
      exact absurd rfl (apart.2.2 i member i failed)

def probingConfig : BlastDNSConfig := { maxConcurrency := 1, resolverProbe := true }

def probingClient : BlastDNSClient :=
  plainClient probingConfig [sameAddress, .v4 ⟨8, 8, 8, 8⟩ 53]

/-- One probe of each entry, of which the first fails. -/
def probeBoth (second : Bool) : List (Opens 2) :=
  [.start 0, .launch 0, .landed 0 ⟨0, Nat.two_pos⟩ false,
    .launch 0, .landed 0 (Fin.last 1) second]

theorem probe_decides_activity_dead :
    ∃ opening : Opening 2,
      Relation.ReflTransGen (OpenSteps anyName probingConfig) (newOpening probingClient) opening ∧
      (opening.system.dispatch.shared.pool 0).active = false ∧
      (opening.system.dispatch.shared.pool 1).active = true ∧ activeCount opening.system = 1 := by
  have ready : ((probeBoth true).foldlM (openStep anyName probingConfig)
      (newOpening probingClient : Opening 2)).map (fun opening : Opening 2 =>
        (opening.failures, (opening.probes 0).map fun probing =>
          (probing.unprobed, probing.flying, probing.answered, probing.failed))) =
      some ([(0 : Fin 2)], some ([], [], [(1 : Fin 2)], [(0 : Fin 2)])) := by
    rfl
  rcases Option.map_eq_some_iff.mp ready with ⟨opening, replayed, seen⟩
  simp only [Prod.mk.injEq] at seen
  rcases seen with ⟨failures, probes⟩
  rcases Option.map_eq_some_iff.mp probes with ⟨probing, found, books⟩
  simp only [Prod.mk.injEq] at books
  rcases books with ⟨unprobed, flying, answered, failed⟩
  have reached := replay_reaches replayed
  rcases probe_decides_activity anyName reached with ⟨active, through⟩
  have count := (through 0 probing found).2 rfl unprobed flying
  have alone : opening.failures ⊆ probing.failed := by
    rw [failures, failed]
    exact List.Subset.refl _
  have first : (0 : Fin 2) ∈ opening.failures ∧ (1 : Fin 2) ∉ opening.failures := by
    rw [failures]
    decide
  refine ⟨opening, reached, (active (0 : Fin 2)).mpr first.1, ?_,
    (count.2.2 alone).trans (congrArg List.length answered)⟩
  apply Bool.eq_true_of_not_eq_false
  exact fun dead => first.2 ((active (1 : Fin 2)).mp dead)

/-- What the probe found dead before there were workers is never sent a query, whatever is
called and whoever probes later; and if that is the whole pool, no query is answered
but by a refusal. -/
theorem dead_entries_never_asked (fromAscii : String → Except ProtoError Name)
    {client : BlastDNSClient} {early late : Opening client.resolvers.length}
    (reached : Relation.ReflTransGen (OpenSteps fromAscii client.config) (newOpening client) early)
    (nobody : early.system.dispatch.procs = [])
    (later : Relation.ReflTransGen (OpenSteps fromAscii client.config) early late) :
    (∀ i ∈ early.failures, (late.system.dispatch.shared.pool i).attempted = 0 ∧
      ∀ phase ∈ late.system.dispatch.procs, mentions i phase = false) ∧
    ((∀ i, i ∈ early.failures) → ∀ answer ∈ late.system.dispatch.shared.sent,
      ∃ query err, answer.2 = .error err ∧ Refusal fromAscii query err) := by
  rcases reached_probed reached with ⟨probed, untouched⟩
  rcases untouched nobody with ⟨sent, unasked⟩
  have starts : ∀ i ∈ early.failures, Shunned i early.system := fun i failed =>
    ⟨(probed.active i).mpr failed, unasked i, by simp [nobody]⟩
  have stays : ∀ i, Shunned i early.system → Shunned i late.system := by
    intro i shunned
    refine reachable_invariant (fun opening => Shunned i opening.system) ?_ later shunned
    intro before after kept stepped
    rcases open_step_system stepped with same | ⟨action, moved⟩
    · exact same ▸ kept
    · exact system_step_shunned moved kept
  constructor
  · intro i failed
    have shunned := stays i (starts i failed)
    exact ⟨shunned.unasked, shunned.unknown⟩
  · intro all
    have refused := reachable_invariant (fun opening : Opening client.resolvers.length =>
      (∀ i, Shunned i opening.system) ∧ Refused fromAscii opening.system) (by
        rintro before after ⟨shunned, refused⟩ stepped
        rcases open_step_system stepped with same | ⟨action, moved⟩
        · exact same ▸ ⟨shunned, refused⟩
        · exact ⟨fun i => system_step_shunned moved (shunned i),
            system_step_refused moved shunned refused⟩)
      later ⟨fun i => starts i (all i), by simp [Refused, sent]⟩
    exact refused.2

/-- A query to a pool both of whose entries are dead. -/
theorem dead_entries_never_asked_refused :
    ∃ late : Opening 2,
      Relation.ReflTransGen (OpenSteps anyName probingConfig) (newOpening probingClient) late ∧
      (∀ i : Fin 2, (late.system.dispatch.shared.pool i).attempted = 0) ∧
      late.system.dispatch.shared.sent.length = 1 ∧
      ∀ answer ∈ late.system.dispatch.shared.sent,
        ∃ query err, answer.2 = .error err ∧ Refusal anyName query err := by
  let used : List (Opens 2) :=
    [.finish 0, .system (.submit 0 ⟨"a.example", 1⟩)] ++
      List.replicate 7 (.system (.worker 0 .proceed))
  have ready : ((probeBoth false).foldlM (openStep anyName probingConfig)
      (newOpening probingClient : Opening 2)).map (fun early : Opening 2 =>
        (early.failures, early.system.dispatch.procs.length,
        (used.foldlM (openStep anyName probingConfig) early).map
          fun late => late.system.dispatch.shared.sent.length)) =
      some ([(0 : Fin 2), (1 : Fin 2)], 0, some 1) := by
    decide
  rcases Option.map_eq_some_iff.mp ready with ⟨early, replayed, seen⟩
  simp only [Prod.mk.injEq] at seen
  rcases seen with ⟨failures, nobody, answered⟩
  rcases Option.map_eq_some_iff.mp answered with ⟨late, played, sent⟩
  have reached := replay_reaches replayed
  have later := replay_reaches played
  rcases dead_entries_never_asked anyName reached (List.length_eq_zero_iff.mp nobody) later with
    ⟨shunned, refused⟩
  have all : ∀ i : Fin 2, i ∈ early.failures := by
    rw [failures]
    decide
  exact ⟨late, reached.trans later, fun i : Fin 2 => (shunned i (all i)).1, sent, refused all⟩

end BlastDns.Startup
