import ProofOps.Domain.Rules.Envelope
import ProofOps.Domain.Numeric.Exactness
import ProofOps.Application.Tagging.Cf6Gate
import ProofOps.Adapters.Local.JobCancellation
import ProofOps.Adapters.Local.RunLimit
import ProofOps.Adapters.Local.SpendCaps
import ProofOps.Adapters.Local.CatalogPaging
import ProofOps.Adapters.Local.RulepackRuns
import ProofOps.Adapters.Local.RetentionRuns
import ProofOps.Adapters.Local.ExportRuns
import ProofOps.Adapters.Parsing.TableTiling
import ProofOps.Application.Ingest.FusionSoundness
import ProofOps.Adapters.Local.ReviewRuns
import ProofOps.Adapters.Aws.UsageBudget
import ProofOps.Api.Hosted.Budget
import ProofOps.Api.Hosted.Concurrency
import ProofOps.Api.Hosted.Publication
import ProofOps.Adapters.Local.ReconciliationRuns
import ProofOps.Application.Tagging.FactAssemblyC4Publication
import ProofOps.Adapters.Local.RasterCheckpoints
import ProofOps.Adapters.Local.ModelResponseFlights
import ProofOps.Adapters.Local.UpstageProbeRuns
import ProofOps.Agent.ExtractionRuns
import ProofOps.Agent.TransportStops
import ProofOps.Api.HostedReuse.Rebinding
import ProofOps.Api.HostedScope.StaleScope
import ProofOps.Api.HostedAccess.Attempts
import ProofOps.Adapters.Local.JobRetry
import ProofOps.Adapters.Local.SchedulerRuns
import ProofOps.Application.Tagging.InventoryCues
import ProofOps.Adapters.Local.RescoreRuns
import ProofOps.Application.Claims.DiscoveredQuotes
import ProofOps.Application.Uploads.ActionScanSafety
import ProofOps.Application.Tagging.FocalRows
import ProofOps.Application.Ingest.TableRecovery
import ProofOps.Application.Ingest.DisplayProtection
import ProofOps.Application.Evidence.ReportLevel
import ProofOps.Application.Rescores
import ProofOps.Application.Comparisons
import ProofOps.Adapters.Dart.Normalization
import ProofOps.Domain.Reconciliation.Threshold
import ProofOps.Domain.Numeric.Closure
import ProofOps.Domain.Reconciliation.Words
import ProofOps.Application.Tagging.WireContext
