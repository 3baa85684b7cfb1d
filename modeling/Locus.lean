import Locus.Anthropic.Agreement
import Locus.Anthropic.Grammar
import Locus.Calibration.Materialization
import Locus.Calibration.PathEviction
import Locus.Calibration.Staleness
import Locus.Calibration.SteadySignal
import Locus.Core.Cancellation
import Locus.Engine.DrainReport
import Locus.Engine.Freshness
import Locus.Engine.PrometheusRoundTrip
import Locus.Engine.RemoteStream
import Locus.ModelIo.ByteTokens
import Locus.ModelIo.OutputContract
import Locus.ModelIo.UniqueCallIds
import Locus.OpenAi.ChatAgreement
import Locus.OpenAi.CompletionAgreement
import Locus.OpenAi.CompletionPrompts
import Locus.OpenAi.Readiness
import Locus.OpenAi.ResponseOutput
import Locus.Parser.HoldBack
import Locus.Parser.ReasoningTexts
import Locus.Parser.ToolGrammar
import Locus.Parser.ToolLimit
import Locus.Planner.OrderIndependence
import Locus.Planner.Protocol
import Locus.Runtime.ColdDegradation
import Locus.Runtime.Coverage
import Locus.Runtime.EngineCancellation
import Locus.Runtime.Fingerprint
import Locus.Runtime.PlacementAudit
import Locus.Runtime.PrefillLearning
import Locus.Runtime.Reservation
import Locus.Runtime.ShadowAgreement
import Locus.Runtime.Terminations
import Locus.Server.DeployedRouting
import Locus.Server.Gateway
import Locus.Server.TransportShutdown
import Locus.Store.MatchedExtent
import Locus.Store.RecordKeys
import Locus.Store.TenantScope
import Locus.Traffic.Conservation
import Locus.Traffic.FairShare
import Locus.Traffic.IdleHistory
import Locus.Traffic.Overflow
import Locus.Traffic.Shedding
import Locus.Traffic.SilentSection
