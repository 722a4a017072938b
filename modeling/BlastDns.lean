import BlastDns.Runs
import BlastDns.Sweep
import BlastDns.Quantised
import BlastDns.Crew
import BlastDns.Lru
import BlastDns.Epochs
import BlastDns.Spaced
import BlastDns.Smoothing
import BlastDns.Unordered
import BlastDns.NetText
import BlastDns.NetReads
import BlastDns.NetChars
import BlastDns.NetZeroes
import BlastDns.Error
import BlastDns.Resolvers
import BlastDns.ResolverGrammar
import BlastDns.Limiter
import BlastDns.Pacer
import BlastDns.PacerBank
import BlastDns.PacerService
import BlastDns.Slots
import BlastDns.Health
import BlastDns.Purgatory
import BlastDns.Sentences
import BlastDns.RttStats
import BlastDns.Judge
import BlastDns.JudgeHistory
import BlastDns.JudgeProgress
import BlastDns.Brake
import BlastDns.BrakeTick
import BlastDns.AttemptPacing
import BlastDns.References
import BlastDns.LaneTick
import BlastDns.LaneCoherence
import BlastDns.Controller
import BlastDns.WindowAccounts
import BlastDns.GlobalCeiling
import BlastDns.ControlRuns
import BlastDns.Independence
import BlastDns.AttemptControl
import BlastDns.NoRatchet
import BlastDns.CapacityLoop
import BlastDns.FixedLoss
import BlastDns.Recovery
import BlastDns.Probes
import BlastDns.IdleReset
import BlastDns.Settling
import BlastDns.Config
import BlastDns.Worker
import BlastDns.Reserve
import BlastDns.Transport
import BlastDns.SendPacing
import BlastDns.Accounting
import BlastDns.Handling
import BlastDns.Client
import BlastDns.Politeness
import BlastDns.GlobalCap
import BlastDns.Descent
import BlastDns.Drain
import BlastDns.Startup
import BlastDns.Descriptors
import BlastDns.DescriptorPeak
import BlastDns.Cache
import BlastDns.CacheBounds
import BlastDns.CacheContract
import BlastDns.Resolve
import BlastDns.PtrNames
import BlastDns.RetryLoop
import BlastDns.EarlyFailure
import BlastDns.Calls
import BlastDns.CallRuns
import BlastDns.CallTraces
import BlastDns.CallsReturn
import BlastDns.Traffic
import BlastDns.Stats
import BlastDns.Steering
import BlastDns.Lifetime
import BlastDns.PositiveCache
import BlastDns.Batch
import BlastDns.PyBatches
import BlastDns.BatchRuns
import BlastDns.HostSources
import BlastDns.Mock
import BlastDns.MockPrecedence
import BlastDns.MockPatterns
