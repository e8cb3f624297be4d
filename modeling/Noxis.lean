import Noxis.Accounting
import Noxis.ActiveRequests
import Noxis.AdminIsolation
import Noxis.AdminSwitches
import Noxis.Admission
import Noxis.AuthWall
import Noxis.BackoffSlots
import Noxis.BackoffTiming
import Noxis.BreakerHistory
import Noxis.Budgets
import Noxis.Cache
import Noxis.CacheFreshness
import Noxis.CacheTransparency
import Noxis.Cascade
import Noxis.Catalogue
import Noxis.Chat
import Noxis.ChatResponse
import Noxis.CircuitMoves
import Noxis.ClientIsolation
import Noxis.Discovery
import Noxis.Dispatch
import Noxis.Dominance
import Noxis.Drain
import Noxis.Embeddings
import Noxis.EmbeddingsFailover
import Noxis.Errors
import Noxis.ExactWindows
import Noxis.Exclusion
import Noxis.Failover
import Noxis.FailoverContract
import Noxis.FirstSuccess
import Noxis.Gateway
import Noxis.GatewayLimits
import Noxis.GlobalConcurrency
import Noxis.GuardCoverage
import Noxis.HalfOpenSlots
import Noxis.HalfOpenTrials
import Noxis.HardFilters
import Noxis.HealthApi
import Noxis.HealthMonitor
import Noxis.InternalAddresses
import Noxis.JsonText
import Noxis.KeyMatching
import Noxis.KeyTokens
import Noxis.KeylessOnly
import Noxis.KeylessRegistry
import Noxis.Library.ExpiringStore
import Noxis.Library.ExponentialAverage
import Noxis.Library.GreedyPattern
import Noxis.Library.LabelledRun
import Noxis.Library.Observation
import Noxis.Library.PartialList
import Noxis.Library.Purge
import Noxis.Library.QuotedText
import Noxis.Library.SlidingWindow
import Noxis.Library.StableSort
import Noxis.Library.Tally
import Noxis.Library.Tasks
import Noxis.Library.TextLines
import Noxis.LoadedRouter
import Noxis.LogLines
import Noxis.LogRedaction
import Noxis.Logging
import Noxis.MalformedEntries
import Noxis.MaskedFields
import Noxis.ModelListing
import Noxis.ModelRegistry
import Noxis.MonitorLifecycle
import Noxis.MonitorLoop
import Noxis.Monitoring
import Noxis.OpenAICompatible
import Noxis.OpenAIObjects
import Noxis.OutboundGuard
import Noxis.PathAgreement
import Noxis.ProviderBase
import Noxis.ProviderRegistry
import Noxis.ProvidersFile
import Noxis.PythonData
import Noxis.RateLimiter
import Noxis.Readmission
import Noxis.RegistryBuild
import Noxis.RequestRoundTrip
import Noxis.ResponseRoundTrip
import Noxis.Resumption
import Noxis.RetryBounds
import Noxis.Router
import Noxis.RouterSpec
import Noxis.Scheduler
import Noxis.Schemas
import Noxis.ScoreRange
import Noxis.Security
import Noxis.SoloRun
import Noxis.SseDecoding
import Noxis.StreamOrder
import Noxis.StreamTermination
import Noxis.SweepContract
import Noxis.SweepService
import Noxis.TrackedTraffic
import Noxis.TypedRouting
import Noxis.UpstreamFailures
import Noxis.UsageBookkeeping
import Noxis.UsageReport
import Noxis.WindowRule
