import BlastDns.NetText

/-!
`src/error.rs`: every way a lookup can fail and the three questions asked of a
failure. Errors of hickory and of the operating system are kept only as far as
`is_timeout` looks into them.
-/

namespace BlastDns

open NetText

/-- `AddrParseError`: which kind of text was expected. -/
inductive AddrParseError where
  | ip
  | socket
  deriving DecidableEq

inductive ProtoError where
  | timeout
  | other (message : String)
  deriving DecidableEq

/-- `ClientErrorKind` -/
inductive ClientError where
  | timeout
  | io (timedOut : Bool)
  | proto (source : ProtoError)
  | other (message : String)
  deriving DecidableEq

inductive BlastDNSError where
  | noResolvers
  | invalidResolver (resolver : String) (source : AddrParseError)
  | invalidHostname (name : String) (source : ProtoError)
  | queueClosed
  | workerDropped
  | resolverSetupFailed (resolver : SocketAddr) (source : ProtoError)
  | resolverRequestFailed (resolver : SocketAddr) (source : ClientError)
  | queryTimedOut (resolver : SocketAddr) (timeoutNs : ℕ)
  | configuration (message : String)
  deriving DecidableEq

namespace BlastDNSError

def isRetryable : BlastDNSError → Bool
  | resolverRequestFailed _ _ | queryTimedOut _ _ | workerDropped => true
  | _ => false

def isCongestionEvidence : BlastDNSError → Bool
  | invalidHostname _ _ | invalidResolver _ _ | queueClosed | configuration _ => false
  | _ => true

def isTimeout : BlastDNSError → Bool
  | queryTimedOut _ _ => true
  | resolverRequestFailed _ source =>
      match source with
      | .timeout => true
      | .io timedOut => timedOut
      | .proto kind => kind = .timeout
      | .other _ => false
  | _ => false

end BlastDNSError

end BlastDns
