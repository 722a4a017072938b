import BlastDns.Accounting
import BlastDns.Resolvers

/-!
`BlastDNSClient` of `src/client.rs` as far as it decides who sends: what
`with_config` accepts, the handles that share one pool and queue, and the lazy
start of the workers. Each handle has its own `OnceCell`; a clone copies a set
cell as set and any other as a new empty one. The initialiser runs in its
caller and may be cancelled while it probes, which leaves the cell empty.
-/

namespace BlastDns.Client

open Config Limiter NetText Resolvers Worker Accounting

def persistentInflightLimit : ℕ := 32

/-- What the operating system answers while a client is built. -/
structure Host where
  -- the name servers of the system configuration, or why it cannot be read
  nameServers : Except String (List IpAddr)
  -- the descriptor limit once raised, or why it cannot be
  nofileLimit : Except String ℕ

/-- The order of the hash set is not specified; here it is that of the list. -/
def getSystemResolvers (host : Host) : Except BlastDNSError (List IpAddr) :=
  match host.nameServers with
  | .error reason =>
      .error (.configuration ("Failed to read system DNS configuration: " ++ reason))
  | .ok ips =>
      if ips.dedup.isEmpty then .error (.configuration "No system resolvers found")
      else .ok ips.dedup

def requiredFds (maxConcurrency resolvers : ℕ) (persistentSocket : Bool) : ℕ :=
  (if persistentSocket then resolvers else maxConcurrency) + maxConcurrency + 100

def checkUlimits (host : Host) (maxConcurrency resolvers : ℕ) (persistentSocket : Bool) :
    Except String Unit :=
  match host.nofileLimit with
  | .error reason => .error reason
  | .ok currentLimit =>
      let required := requiredFds maxConcurrency resolvers persistentSocket
      if currentLimit < required then
        let driver :=
          if persistentSocket then
            s!"persistent sockets for {resolvers} resolvers plus max_concurrency {maxConcurrency}"
          else s!"max_concurrency of {maxConcurrency}"
        .error (s!"NOFILE limit too low even after raising soft limit: current={currentLimit}, " ++
          s!"required={required}\n{driver} needs ~{required} FDs\n" ++
          s!"Increase with: ulimit -n {required} (or higher), or lower max_concurrency")
      else .ok ()

def resolverTexts (host : Host) (resolvers : List String) : Except BlastDNSError (List String) :=
  if resolvers.isEmpty then (getSystemResolvers host).map fun ips => ips.map systemResolverText
  else .ok resolvers

def checkLimits (host : Host) (config : BlastDNSConfig) (resolvers : ℕ) :
    Except BlastDNSError Unit :=
  if config.persistentSocket && persistentInflightLimit < config.maxInflightPerResolver then
    let inflight := config.maxInflightPerResolver
    .error (.configuration (s!"max_inflight_per_resolver of {inflight} exceeds the " ++
      s!"{persistentInflightLimit} a persistent socket can carry before its transport blocks; " ++
      "lower it or set persistent_socket=false"))
  else
    match checkUlimits host (max config.maxConcurrency 1) resolvers config.persistentSocket with
    | .error reason => .error (.configuration reason)
    | .ok () => .ok ()

/-- The parts of a client that its clones share or copy. -/
structure BlastDNSClient where
  resolvers : List SocketAddr
  config : BlastDNSConfig
  queueCapacity : ℕ
  limiter : RateLimiter

/-- `with_config`; `none` is the panic of a limiter built with no positive rate. -/
def withConfig (host : Host) (resolvers : List String) (config : BlastDNSConfig) :
    Option (Except BlastDNSError BlastDNSClient) :=
  match resolverTexts host resolvers >>= List.mapM parseResolver with
  | .error err => some (.error err)
  | .ok parsed =>
      match checkLimits host config parsed.length with
      | .error err => some (.error err)
      | .ok () =>
          (RateLimiter.new (config.rateLimit.getD unlimitedQps)).map fun limiter =>
            .ok {
              resolvers := parsed
              config := config
              queueCapacity := max config.maxConcurrency 1
              limiter := limiter }

theorem with_config_ok {host : Host} {texts : List String} {config : BlastDNSConfig}
    {client : BlastDNSClient} (accepted : withConfig host texts config = some (.ok client)) :
    ∃ used, resolverTexts host texts = .ok used ∧
      used.mapM parseResolver = .ok client.resolvers ∧ client.config = config ∧
      client.queueCapacity = max config.maxConcurrency 1 := by
  rw [withConfig] at accepted
  cases parsed : resolverTexts host texts >>= List.mapM parseResolver with
  | error err => simp [parsed] at accepted
  | ok addresses =>
      simp only [parsed] at accepted
      cases checked : checkLimits host config addresses.length with
      | error err => simp [checked] at accepted
      | ok done =>
          simp only [checked] at accepted
          rcases Option.map_eq_some_iff.mp accepted with ⟨limiter, _, built⟩
          cases built
          cases used : resolverTexts host texts with
          | error err => simp [used, bind, Except.bind] at parsed
          | ok found =>
              refine ⟨found, rfl, ?_, rfl, rfl⟩
              simpa [used, bind, Except.bind] using parsed

/-- A handle's `workers_spawned`. -/
inductive Cell where
  | empty
  | initialising
  | set
  deriving DecidableEq

def Cell.clone : Cell → Cell
  | .set => .set
  | .empty | .initialising => .empty

structure System (n : ℕ) where
  handles : List Cell := [.empty]
  controllers : ℕ := 0
  dispatch : Dispatch n

inductive Action (n : ℕ) where
  | clone (handle : ℕ)
  -- a caller finds the cell empty and runs the initialiser
  | startInit (handle : ℕ)
  -- its caller is dropped while it probes
  | cancelInit (handle : ℕ)
  | finishInit (handle : ℕ)
  -- `resolve_full` past `ensure_workers`
  | submit (handle : ℕ) (query : QuerySpec)
  | worker (index : ℕ) (label : Label)
  | around (environment : Environment n)

section Steps

variable {n : ℕ} {Name : Type} (fromAscii : String → Except ProtoError Name)

/-- The body of the initialiser after the probe: the controller, then the workers. -/
def spawnAll (config : BlastDNSConfig) (system : System n) : System n :=
  { system with
    controllers := if config.adaptive then system.controllers + 1 else system.controllers
    dispatch := Crew.hire system.dispatch
      (List.replicate (max config.maxConcurrency 1) Phase.idle) }

def dispatchTo (system : System n) (event : Event n) : Option (System n) :=
  (dispatchStep fromAscii system.dispatch event).map fun dispatch =>
    { system with dispatch := dispatch }

def systemStep (config : BlastDNSConfig) (system : System n) : Action n → Option (System n)
  | .clone handle =>
      system.handles[handle]?.map fun cell =>
        { system with handles := system.handles ++ [cell.clone] }
  | .startInit handle =>
      if system.handles[handle]? = some .empty then
        some { system with handles := system.handles.set handle .initialising }
      else none
  | .cancelInit handle =>
      if system.handles[handle]? = some .initialising then
        some { system with handles := system.handles.set handle .empty }
      else none
  | .finishInit handle =>
      if system.handles[handle]? = some .initialising then
        some (spawnAll config { system with handles := system.handles.set handle .set })
      else none
  | .submit handle query =>
      -- every handle sends into the one queue, whoever spawned its workers
      if system.handles[handle]? = some .set then
        dispatchTo fromAscii system (.around (.enqueue query))
      else none
  | .worker index label => dispatchTo fromAscii system (.worker index label)
  | .around (.enqueue _) => none
  | .around environment => dispatchTo fromAscii system (.around environment)

def newSystem (client : BlastDNSClient) : System client.resolvers.length where
  dispatch := newDispatch (newPool client.resolvers client.config) client.queueCapacity 0

end Steps

end BlastDns.Client
