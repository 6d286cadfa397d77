import GenericApp.Workers.JobFinality
import GenericApp.Workers.JobSchedules
import GenericApp.Workers.EffectGrants
import GenericApp.Workers.EffectSchedules
import GenericApp.Workers.DeliveryCover
import GenericApp.Workers.OperationIds
import GenericApp.Jobs.Cancellation
import GenericApp.Rag.Retention
import GenericApp.Rag.KeySoundness
import GenericApp.Rag.Deletion
import GenericApp.Rag.JobAgreement
import GenericApp.Rag.ConcurrentIndexing
import GenericApp.Rag.Uploads
import GenericApp.Core.Generations
import GenericApp.Policy.RoleAssignments
import GenericApp.Policy.TenantIsolation
import GenericApp.Memory.MemoryRegistry
import GenericApp.Memory.MemoryPaging
import GenericApp.Identity.PasswordReset
import GenericApp.Scaffold.RouterWiring
import GenericApp.Scaffold.Atomicity
import GenericApp.Core.Pagination
import GenericApp.Chat.StreamProtocol
import GenericApp.Chat.Streaming
import GenericApp.Chat.ConversationOrder
import GenericApp.Ai.RunSettlement
import GenericApp.Workers.ClaimDeadlines
import GenericApp.Workers.EffectPayload
import GenericApp.Rag.QualityGuarantees
import GenericApp.Rag.RankFusion
import GenericApp.Ai.CatalogRaces
import GenericApp.Platform.BillingUniqueness
import GenericApp.Frontend.StreamAgreement
import GenericApp.Platform.AdminVisibility
import GenericApp.Identity.Enumeration
import GenericApp.Platform.SessionExclusivity
import GenericApp.Rag.ChunkOverlap
import GenericApp.Rag.ChildWindows
import GenericApp.Rag.ContextBudget
import GenericApp.Rag.ChunkLinks
import GenericApp.Rag.DatasetRuns
import GenericApp.Core.BatchReads
import GenericApp.Core.LoadOutcomes
import GenericApp.Platform.ManifestGraph
import GenericApp.Ai.EvaluationRuns
import GenericApp.Projects.Reordering
import GenericApp.Scaffold.LineMerging
import GenericApp.Ai.PromptRendering
import GenericApp.Ai.ProviderRetry
import GenericApp.Memory.ConsolidationLoss
import GenericApp.Core.LocalCache
import GenericApp.Chat.TokenAnswers
import GenericApp.Jobs.JobsListing
import GenericApp.Platform.ModuleGates
import GenericApp.Frontend.SessionRefresh
import GenericApp.Identity.AttemptLimits
import GenericApp.Platform.WebhookDelivery
