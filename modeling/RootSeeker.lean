import RootSeeker.Admin.CronJobRuns
import RootSeeker.Admin.DiscoveryRuns
import RootSeeker.Admin.ErrorChatPayload
import RootSeeker.Admin.UserAccounts
import RootSeeker.AgentRuntime.LegalRun
import RootSeeker.AgentRuntime.McpSupplement
import RootSeeker.AgentRuntime.ModelOutput
import RootSeeker.AgentRuntime.NormalizeDependency
import RootSeeker.AgentRuntime.RunOverlays
import RootSeeker.AgentRuntime.StepIdRenaming
import RootSeeker.Analysis.HitAttribution
import RootSeeker.Analysis.IterationSupport
import RootSeeker.Analysis.JsonAnswers
import RootSeeker.Analysis.SourceWindow
import RootSeeker.Analysis.UnconfiguredEvidence
import RootSeeker.ChannelRouting.RequestBodies
import RootSeeker.ChannelRouting.SignedWebhook
import RootSeeker.ChannelRouting.VerbatimTemplates
import RootSeeker.CodeIndex.ChunkCoverage
import RootSeeker.CodeIndex.CliPayload
import RootSeeker.CodeIndex.GitAuth
import RootSeeker.CodeIndex.LspClient
import RootSeeker.CodeIndex.OwnBodies
import RootSeeker.CodeIndex.ReadyIndex
import RootSeeker.CodeIndex.RepositoryFiles
import RootSeeker.CodeIndex.RequestedClass
import RootSeeker.CodeIndex.SidecarPaths
import RootSeeker.CodeIndex.SkippedRepositories
import RootSeeker.Cron.ClockChanges
import RootSeeker.Cron.ConcurrencyLimit
import RootSeeker.Cron.FileStateStore
import RootSeeker.Cron.RetryBudget
import RootSeeker.External.LogQueries
import RootSeeker.External.PreparedQueries
import RootSeeker.External.ZoektLines
import RootSeeker.Gateway.Broadcasts
import RootSeeker.Gateway.HttpRequests
import RootSeeker.Gateway.RateLimits
import RootSeeker.Gateway.SelfApproval
import RootSeeker.Gateway.TokenRoundTrip
import RootSeeker.InfraCore.NetworkGuard
import RootSeeker.LogData.QueryRenderer
import RootSeeker.McpPlane.ApprovalRuns
import RootSeeker.McpPlane.AuditTrail
import RootSeeker.McpPlane.LiveTools
import RootSeeker.McpPlane.ResponseMatching
import RootSeeker.McpPlane.SessionRecovery
import RootSeeker.Observability.Redaction
import RootSeeker.PluginSystem.ManifestRegistry
import RootSeeker.Replay.Runner
import RootSeeker.Setup.EnvReadBack
import RootSeeker.SkillSystem.ContentLoader
import RootSeeker.SkillSystem.PlaybookRuns
import RootSeeker.SkillSystem.SafeInstall
import RootSeeker.SkillSystem.SkillPublisher
import RootSeeker.Storage.ChannelAgreement
import RootSeeker.Storage.CheckpointAgreement
import RootSeeker.Storage.McpServerFile
import RootSeeker.Storage.MysqlPool
import RootSeeker.Storage.ReplayHistory
import RootSeeker.Storage.TemplateAgreement
import RootSeeker.TaskRuntime.NoTaskLost
