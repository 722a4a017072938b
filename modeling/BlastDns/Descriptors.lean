import BlastDns.GlobalCap
import BlastDns.Transport

/-!
The sockets a client has open. A UDP socket is either a query's own or, with
`persistent_socket`, an entry's for good; a TCP connection is an entry's from its
first truncated response until the peer closes it. So what `required_fds` has to
cover is the history of the whole pool. The startup probe queries the entries
too, inside the initialiser and before there are workers.
-/

namespace BlastDns.Descriptors

open Accounting Client Config Crew GlobalCap NetText Runs Transport Worker

variable {n : ℕ} {Name : Type}

structure Sockets (n : ℕ) where
  system : System n
  -- whose `client` cell is filled
  built : Fin n → Bool := fun _ => false
  tcp : Fin n → TcpCell := fun _ => .empty
  -- entries the startup probe has yet to query, in order
  unprobed : List (Fin n) := []
  probing : List (Fin n) := []

/-- `query_bounded` to this entry is under way. -/
def asks (i : Fin n) : Phase n → Bool
  | .working _ (.holding j (.querying _)) => i = j
  | _ => false

/-- `refetch_over_tcp` to this entry is under way. -/
def refetches (i : Fin n) : Phase n → Bool
  | .working _ (.holding j (.refetching _ _)) => i = j
  | _ => false

/-- A response needs a client to have come through. -/
def heard (sockets : Sockets n) : Phase n → Label → Bool
  | .working _ (.holding i (.querying _)), .answer (.ok _) => sockets.built i
  | .working _ (.holding i (.refetching _ _)), .refetched (some _) => sockets.tcp i ≠ .empty
  | _, _ => true

inductive Move (n : ℕ) where
  | startInit
  | cancelInit
  | finishInit
  | submit (query : QuerySpec)
  | worker (index : ℕ) (label : Label)
  | around (environment : Environment n)
  -- `client` connects, for a query or a probe
  | connect (resolver : Fin n)
  -- `tcp_client` connects
  | connectTcp (resolver : Fin n)
  -- the peer closes its TCP connection
  | closeTcp (resolver : Fin n)
  -- `buffer_unordered` takes the next probe
  | probe
  | probed (resolver : Fin n) (alive : Bool)

section Steps

variable (fromAscii : String → Except ProtoError Name)

def systemTo (config : BlastDNSConfig) (sockets : Sockets n) (action : Action n) :
    Option (Sockets n) :=
  (systemStep fromAscii config sockets.system action).map fun system =>
    { sockets with system := system }

def socketStep (config : BlastDNSConfig) (sockets : Sockets n) : Move n → Option (Sockets n)
  | .startInit =>
      systemTo fromAscii config
        { sockets with unprobed := if config.resolverProbe then List.finRange n else [] }
        (.startInit 0)
  | .cancelInit =>
      -- the probes live in the caller and are dropped with it
      systemTo fromAscii config { sockets with unprobed := [], probing := [] } (.cancelInit 0)
  | .finishInit =>
      if sockets.unprobed.isEmpty && sockets.probing.isEmpty then
        systemTo fromAscii config sockets (.finishInit 0)
      else none
  | .submit query => systemTo fromAscii config sockets (.submit 0 query)
  | .worker index label =>
      match sockets.system.dispatch.procs[index]? with
      | some phase =>
          if heard sockets phase label then
            systemTo fromAscii config sockets (.worker index label)
          else none
      | none => none
  -- a probe is a step of its own here
  | .around (.probeFailed _) => none
  | .around environment => systemTo fromAscii config sockets (.around environment)
  | .connect i =>
      if sockets.system.dispatch.procs.any (asks i) || sockets.probing.contains i then
        some { sockets with built := Function.update sockets.built i true }
      else none
  | .connectTcp i =>
      if sockets.system.dispatch.procs.any (refetches i) && decide (sockets.tcp i = .empty) then
        some { sockets with tcp := Function.update sockets.tcp i .live }
      else none
  | .closeTcp i =>
      some { sockets with tcp := Function.update sockets.tcp i (close (sockets.tcp i)) }
  | .probe =>
      match sockets.unprobed with
      | [] => none
      | i :: rest =>
          if sockets.probing.length < max config.maxConcurrency 1 then
            some { sockets with unprobed := rest, probing := i :: sockets.probing }
          else none
  | .probed i alive =>
      if sockets.probing.contains i && (!alive || sockets.built i) then
        let left := { sockets with probing := sockets.probing.erase i }
        if alive then some left
        else systemTo fromAscii config left (.around (.probeFailed i))
      else none

def SocketSteps (config : BlastDNSConfig) (before after : Sockets n) : Prop :=
  ∃ move, socketStep fromAscii config before move = some after

end Steps

def newSockets (client : BlastDNSClient) : Sockets client.resolvers.length where
  system := newSystem client

/-- One UDP socket for each query in flight, or for each entry with a client; one TCP
connection for each entry whose client still has it. -/
def openSockets (config : BlastDNSConfig) (sockets : Sockets n) : ℕ :=
  (if config.persistentSocket then (Finset.univ.filter fun i => sockets.built i = true).card
    else ∑ i, inFlight sockets.system.dispatch i + sockets.probing.length) +
    (Finset.univ.filter fun i => sockets.tcp i = .live).card

section Staff

variable {config : BlastDNSConfig} {fromAscii : String → Except ProtoError Name}
variable {before after : Sockets n}

/-- Not started, probing before there are workers, or all workers and no probe. -/
inductive Staffed (config : BlastDNSConfig) (sockets : Sockets n) : Prop
  | unused (handles : sockets.system.handles = [.empty])
      (workers : sockets.system.dispatch.procs.length = 0)
      (probes : sockets.unprobed = [] ∧ sockets.probing = [])
  | starting (handles : sockets.system.handles = [.initialising])
      (workers : sockets.system.dispatch.procs.length = 0)
      (probes : sockets.probing.length ≤ max config.maxConcurrency 1)
  | working (handles : sockets.system.handles = [.set])
      (workers : sockets.system.dispatch.procs.length = max config.maxConcurrency 1)
      (probes : sockets.unprobed = [] ∧ sockets.probing = [])

theorem system_to_some {action : Action n}
    (stepped : systemTo fromAscii config before action = some after) :
    ∃ system, systemStep fromAscii config before.system action = some system ∧
      after = { before with system := system } := by
  rcases Option.map_eq_some_iff.mp stepped with ⟨system, moved, same⟩
  exact ⟨system, moved, same.symm⟩

theorem staffed_dispatch {event : Event n} {system : System n}
    (stepped : dispatchTo fromAscii before.system event = some system)
    (staffed : Staffed config before) : Staffed config { before with system := system } := by
  rcases Option.map_eq_some_iff.mp stepped with ⟨dispatch, moved, same⟩
  have size : dispatch.procs.length = before.system.dispatch.procs.length :=
    steps_length ⟨event, moved⟩
  subst same
  cases staffed with
  | unused handles workers probes => exact .unused handles (size.trans workers) probes
  | starting handles workers probes => exact .starting handles (size.trans workers) probes
  | working handles workers probes => exact .working handles (size.trans workers) probes

theorem staffed_cells (built : Fin n → Bool) (tcp : Fin n → TcpCell)
    (staffed : Staffed config before) :
    Staffed config { before with built := built, tcp := tcp } := by
  cases staffed with
  | unused handles workers probes => exact .unused handles workers probes
  | starting handles workers probes => exact .starting handles workers probes
  | working handles workers probes => exact .working handles workers probes

theorem staffed_probe {i : Fin n} {rest : List (Fin n)} (next : before.unprobed = i :: rest)
    (room : before.probing.length < max config.maxConcurrency 1)
    (staffed : Staffed config before) :
    Staffed config { before with unprobed := rest, probing := i :: before.probing } := by
  cases staffed with
  | unused handles workers probes => simp [probes.1] at next
  | starting handles workers probes => exact .starting handles workers (Nat.succ_le_of_lt room)
  | working handles workers probes => simp [probes.1] at next

theorem staffed_probed (i : Fin n) (staffed : Staffed config before) :
    Staffed config { before with probing := before.probing.erase i } := by
  cases staffed with
  | unused handles workers probes => exact .unused handles workers (by simp [probes])
  | starting handles workers probes =>
      exact .starting handles workers (List.length_erase_le.trans probes)
  | working handles workers probes => exact .working handles workers (by simp [probes])

theorem staffed_started {unprobed : List (Fin n)}
    (stepped : systemTo fromAscii config { before with unprobed := unprobed } (.startInit 0) =
      some after)
    (staffed : Staffed config before) : Staffed config after := by
  rcases system_to_some stepped with ⟨system, moved, rfl⟩
  simp only [systemStep] at moved
  split at moved <;> cases moved
  rename_i empty
  cases staffed with
  | unused handles workers probes =>
      exact .starting (by simp [handles]) workers (by simp [probes.2])
  | starting handles workers probes => simp [handles] at empty
  | working handles workers probes => simp [handles] at empty

theorem staffed_initialising (staffed : Staffed config before)
    (initialising : before.system.handles[0]? = some .initialising) :
    before.system.handles = [.initialising] ∧ before.system.dispatch.procs.length = 0 := by
  cases staffed with
  | unused handles workers probes => simp [handles] at initialising
  | starting handles workers probes => exact ⟨handles, workers⟩
  | working handles workers probes => simp [handles] at initialising

theorem staffed_cancelled
    (stepped : systemTo fromAscii config { before with unprobed := [], probing := [] }
      (.cancelInit 0) = some after)
    (staffed : Staffed config before) : Staffed config after := by
  rcases system_to_some stepped with ⟨system, moved, rfl⟩
  simp only [systemStep] at moved
  split at moved <;> cases moved
  rename_i initialising
  obtain ⟨handles, workers⟩ := staffed_initialising staffed initialising
  exact .unused (by simp [handles]) workers ⟨rfl, rfl⟩

theorem staffed_finished (stepped : systemTo fromAscii config before (.finishInit 0) = some after)
    (done : before.unprobed = [] ∧ before.probing = []) (staffed : Staffed config before) :
    Staffed config after := by
  rcases system_to_some stepped with ⟨system, moved, rfl⟩
  simp only [systemStep] at moved
  split at moved <;> cases moved
  rename_i initialising
  obtain ⟨handles, workers⟩ := staffed_initialising staffed initialising
  exact .working (by simp [spawnAll, handles]) (by simp [spawnAll, hire, workers]) done

theorem socket_step_staffed (stepped : SocketSteps fromAscii config before after)
    (staffed : Staffed config before) : Staffed config after := by
  rcases stepped with ⟨move, stepped⟩
  cases move with
  | startInit => exact staffed_started stepped staffed
  | cancelInit => exact staffed_cancelled stepped staffed
  | finishInit =>
      simp only [socketStep] at stepped
      split at stepped
      · rename_i done
        exact staffed_finished stepped (by simpa using done) staffed
      · cases stepped
  | submit query =>
      rcases system_to_some stepped with ⟨system, moved, rfl⟩
      simp only [systemStep] at moved
      split at moved
      · exact staffed_dispatch moved staffed
      · cases moved
  | worker index label =>
      simp only [socketStep] at stepped
      split at stepped
      · split at stepped
        · rcases system_to_some stepped with ⟨system, moved, rfl⟩
          exact staffed_dispatch moved staffed
        · cases stepped
      · cases stepped
  | around environment =>
      cases environment
      case probeFailed => cases stepped
      case enqueue => cases stepped
      all_goals
        rcases system_to_some stepped with ⟨system, moved, rfl⟩
        exact staffed_dispatch moved staffed
  | connect i =>
      simp only [socketStep] at stepped
      split at stepped <;> cases stepped
      exact staffed_cells _ _ staffed
  | connectTcp i =>
      simp only [socketStep] at stepped
      split at stepped <;> cases stepped
      exact staffed_cells _ _ staffed
  | closeTcp i =>
      cases stepped
      exact staffed_cells _ _ staffed
  | probe =>
      simp only [socketStep] at stepped
      split at stepped
      · cases stepped
      · rename_i next
        split at stepped <;> cases stepped
        rename_i room
        exact staffed_probe next room staffed
  | probed i alive =>
      simp only [socketStep] at stepped
      split at stepped
      · split at stepped
        · cases stepped
          exact staffed_probed i staffed
        · rcases system_to_some stepped with ⟨system, moved, rfl⟩
          exact staffed_dispatch moved (staffed_probed i staffed)
      · cases stepped

/-- The most that can be open: each entry's connection on top of its own socket, or of
one socket for each worker. -/
theorem open_sockets_le {client : BlastDNSClient} {sockets : Sockets client.resolvers.length}
    (reached : Relation.ReflTransGen (SocketSteps fromAscii client.config) (newSockets client)
      sockets) :
    openSockets client.config sockets ≤
      (if client.config.persistentSocket then client.resolvers.length
        else max client.config.maxConcurrency 1) + client.resolvers.length := by
  have staffed : Staffed client.config sockets := by
    apply reachable_invariant (Staffed client.config) _ reached
    · exact .unused rfl rfl ⟨rfl, rfl⟩
    · exact fun _ _ kept stepped => socket_step_staffed stepped kept
  have entries : ∀ kind : Fin client.resolvers.length → Prop, [DecidablePred kind] →
      (Finset.univ.filter kind).card ≤ client.resolvers.length := by
    intro kind _
    exact (Finset.card_filter_le _ _).trans_eq (Finset.card_fin _)
  rw [openSockets]
  apply Nat.add_le_add _ (entries _)
  split
  · exact entries _
  · have flying := in_flight_sum_le sockets.system.dispatch
    cases staffed with
    | unused handles workers probes =>
        rw [probes.2, List.length_nil]
        omega
    | starting handles workers probes => omega
    | working handles workers probes =>
        rw [probes.2, List.length_nil]
        omega

end Staff

end BlastDns.Descriptors
