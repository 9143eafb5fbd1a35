import Trion.TaskLoop.ApprovalGate
import Trion.TaskLoop.RetryBounds
import Trion.TaskLoop.PauseResume
import Trion.TaskLoop.Evidence
import Trion.TaskLoop.EpochEvidence
import Trion.TaskLoop.CompletionStatus
import Trion.Pipeline.ReadOnly
import Trion.Cron.IntervalPolicy
import Trion.Cron.AutonomyLimits
import Trion.Cron.QueueBounds
import Trion.Mcp.TransportRetirement
import Trion.Mcp.AcceptedMirrors
import Trion.Mcp.StdioNegotiation
import Trion.Mcp.StdioAnswers
import Trion.Mcp.HttpSessions
import Trion.Commander.QuotaReservations
import Trion.Blueprints.MountScopes
import Trion.Blueprints.InheritedSettings
import Trion.Blueprints.StoreContract
import Trion.Security.BootstrapRuns
import Trion.Vault.OneKey
import Trion.Skills.InstallGate
import Trion.CimPolicy.Autonomy
import Trion.Output.StreamedText
import Trion.Verifier.DocumentPlans
import Trion.Verifier.DocumentReads
import Trion.Graph.Walk
import Trion.Graph.Merge
import Trion.Memory.SkillMetrics
import Trion.Memory.Backfill
import Trion.Commander.PortBindings
import Trion.Llm.WholeText
import Trion.Output.RenderableEvidence
import Trion.Commander.SnapshotRuns
import Trion.Security.Answers
import Trion.Mcp.SseTransport
import Trion.Mcp.Reconcile
import Trion.Routing.OwnTargets
import Trion.Cron.ExpressionGrammar
import Trion.TaskLoop.DocumentReferences
import Trion.TaskLoop.EvidenceNeeds
import Trion.WebUi.ChatMessageStreaming
import Trion.Cron.EstimatedInterval
import Trion.Cron.NextRun
import Trion.Cron.ReArmed
import Trion.Mcp.CatalogRoutes
import Trion.Filesystem.ListingOrder
import Trion.InputProcessor.DocumentChunks
import Trion.Skills.GraphReconcile
import Trion.TextUtils.CodeProtection
import Trion.TextUtils.SemanticRuns
import Trion.TextUtils.JsonRepair
import Trion.TaskResume.OneOwner
import Trion.TaskResume.PlanRoundTrip
import Trion.TaskResume.SnapshotRoundTrip
import Trion.Commander.ApprovalPlaces
import Trion.Pipeline.ExecutionSafety
import Trion.TaskLoop.RunEnds
import Trion.Settings.Manager
