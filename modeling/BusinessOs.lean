import BusinessOs.App.AgentRelease
import BusinessOs.App.AgentRows
import BusinessOs.App.BreakerAgreement
import BusinessOs.App.BreakerRuns
import BusinessOs.App.BreakerStores
import BusinessOs.App.Breakers
import BusinessOs.App.Company
import BusinessOs.App.CompanyCommits
import BusinessOs.App.CompanyLayer
import BusinessOs.App.CrashPoints
import BusinessOs.App.DecisionFinality
import BusinessOs.App.Decisions
import BusinessOs.App.DepartmentAgent
import BusinessOs.App.DepartmentEffects
import BusinessOs.App.DepartmentFactory
import BusinessOs.App.DepartmentRetries
import BusinessOs.App.EvidencePackets
import BusinessOs.App.FinanceOperations
import BusinessOs.App.FlushFailures
import BusinessOs.App.Guardrails
import BusinessOs.App.InvoiceGate
import BusinessOs.App.KilledDepartments
import BusinessOs.App.Lifecycle
import BusinessOs.App.LifecycleCommits
import BusinessOs.App.LifecycleLaws
import BusinessOs.App.MemorySets
import BusinessOs.App.Models
import BusinessOs.App.Orchestrator
import BusinessOs.App.Parity
import BusinessOs.App.PendingQueue
import BusinessOs.App.RevenueBooks
import BusinessOs.App.RevenueSignals
import BusinessOs.App.ScheduleFairness
import BusinessOs.App.ScheduleOccurrences
import BusinessOs.App.ScheduleTurns
import BusinessOs.App.Scheduler
import BusinessOs.App.SchedulerOverlap
import BusinessOs.App.SchedulerRuns
import BusinessOs.App.SdkResults
import BusinessOs.App.Sessions
import BusinessOs.App.SkillAnalysis
import BusinessOs.App.SkillIdentity
import BusinessOs.App.SkillIsolation
import BusinessOs.App.Skills
import BusinessOs.App.SlackGates
import BusinessOs.App.SlugAgreement
import BusinessOs.App.ToolCalls
import BusinessOs.App.Waiting
import BusinessOs.App.Workflows
import BusinessOs.Core.AgentAudit
import BusinessOs.Core.Approval
import BusinessOs.Core.ApprovalRuns
import BusinessOs.Core.ApprovalTimeouts
import BusinessOs.Core.AttemptCounts
import BusinessOs.Core.Audit
import BusinessOs.Core.AuditWindows
import BusinessOs.Core.Backoff
import BusinessOs.Core.Bridge
import BusinessOs.Core.Dispatch
import BusinessOs.Core.Facade
import BusinessOs.Core.FacadeEscalation
import BusinessOs.Core.FacadeHealth
import BusinessOs.Core.FacadeStores
import BusinessOs.Core.FacadeTrail
import BusinessOs.Core.GuardrailContexts
import BusinessOs.Core.HashJson
import BusinessOs.Core.LeadScore
import BusinessOs.Core.OrchestratorLog
import BusinessOs.Core.RateLimit.Breaker
import BusinessOs.Core.RateLimit.BreakerCalls
import BusinessOs.Core.RateLimit.BreakerExposure
import BusinessOs.Core.RateLimit.BreakerHistory
import BusinessOs.Core.RateLimit.BreakerRecovery
import BusinessOs.Core.RateLimit.BreakerTrips
import BusinessOs.Core.RateLimit.BreakerVerdicts
import BusinessOs.Core.RateLimit.Bucket
import BusinessOs.Core.RateLimit.BucketArithmetic
import BusinessOs.Core.RateLimit.BucketLater
import BusinessOs.Core.RateLimit.BucketReadings
import BusinessOs.Core.RateLimit.BucketReference
import BusinessOs.Core.RateLimit.BucketRuns
import BusinessOs.Core.RateLimit.BucketWaits
import BusinessOs.Core.RateLimit.Guard
import BusinessOs.Core.RateLimit.GuardCost
import BusinessOs.Core.RateLimit.GuardRuns
import BusinessOs.Core.RecordStatus
import BusinessOs.Core.ReplayWindow
import BusinessOs.Core.RetryRuns
import BusinessOs.Core.Scoring
import BusinessOs.Core.Security
import BusinessOs.Core.SkillBridge
import BusinessOs.Core.StateMachine
import BusinessOs.Core.TaskRuns
import BusinessOs.Core.Types
import BusinessOs.Core.WebhookBinding
import BusinessOs.Core.WorkflowEntries
import BusinessOs.Core.WorkflowRecords
import BusinessOs.Governance.Agreement
import BusinessOs.Governance.Breaker
import BusinessOs.Governance.BreakerWindows
import BusinessOs.Governance.Canonical
import BusinessOs.Governance.Comparisons
import BusinessOs.Governance.Ledger
import BusinessOs.Governance.Policy
import BusinessOs.Governance.PolicyAgreement
import BusinessOs.Lib.Bytes
import BusinessOs.Lib.CappedTicks
import BusinessOs.Lib.Chrono
import BusinessOs.Lib.Commits
import BusinessOs.Lib.Execution
import BusinessOs.Lib.Interleaving
import BusinessOs.Lib.Json.Compact
import BusinessOs.Lib.Json.Literals
import BusinessOs.Lib.Json.Tree
import BusinessOs.Lib.Lowercase
import BusinessOs.Lib.MachineInt
import BusinessOs.Lib.OrderedMap
import BusinessOs.Lib.Table
import BusinessOs.Lib.TopN
import BusinessOs.Lib.UnitOfWork
