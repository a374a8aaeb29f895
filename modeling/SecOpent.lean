import SecOpent.Python.Text
import SecOpent.Python.Dict
import SecOpent.Python.Table
import SecOpent.Python.Call
import SecOpent.Python.Json
import SecOpent.Python.DateTime
import SecOpent.Python.IpAddress
import SecOpent.Python.IpRoundTrip
import SecOpent.Python.IpExtension
import SecOpent.Python.Url
import SecOpent.Python.Effects
import SecOpent.Scope.Normalize
import SecOpent.Scope.Snapshot
import SecOpent.Scope.AddressRules
import SecOpent.Scope.Enforcement
import SecOpent.Scope.LiteralTargets
import SecOpent.Scope.BlockedAddresses
import SecOpent.Scope.NftScope
import SecOpent.Scope.Narrowing
import SecOpent.Scope.Spelling
import SecOpent.Scope.Freezing
import SecOpent.Assessments.Models
import SecOpent.Findings.Correlation
import SecOpent.Adapters.StepRunner
import SecOpent.Execution.PlanScope
import SecOpent.Grants.Models
import SecOpent.Grants.Coverage
import SecOpent.Transition.Runs
import SecOpent.Transition.Conditions
import SecOpent.HashChain.Linked
import SecOpent.Assessments.Service
import SecOpent.Assessments.Approvals
import SecOpent.Assessments.Lifecycle
import SecOpent.Jobs.Store
import SecOpent.Jobs.Repository
import SecOpent.Jobs.Orchestrator
import SecOpent.Jobs.Isolation
import SecOpent.Jobs.Leases
import SecOpent.Jobs.Board
import SecOpent.Jobs.Course
import SecOpent.Jobs.Rounds
import SecOpent.Jobs.PlanRuns
import SecOpent.Jobs.Tracking
import SecOpent.Jobs.RunOrder
import SecOpent.Jobs.RoundBudget
import SecOpent.Execution.Permits
import SecOpent.Execution.System
import SecOpent.Execution.SingleDrain
import SecOpent.Execution.ApprovedRisks
import SecOpent.Execution.EmergencyStop
import SecOpent.Execution.ControlSignals
import SecOpent.Execution.PauseResume
import SecOpent.Execution.StraightRuns
import SecOpent.Audit.Events
import SecOpent.Audit.Service
import SecOpent.Audit.Chain
import SecOpent.Oracle.Verification
import SecOpent.Oracle.Canary
import SecOpent.Oracle.DiffSemantic
import SecOpent.Oracle.EntryPoints
import SecOpent.ReasoningLoop.Actions
import SecOpent.ReasoningLoop.PolicyGate
import SecOpent.ReasoningLoop.PermitGate
import SecOpent.ReasoningLoop.States
import SecOpent.ReasoningLoop.LoopScheduler
import SecOpent.ReasoningLoop.LoopEffects
import SecOpent.ReasoningLoop.PauseControl
import SecOpent.ReasoningLoop.Orchestrator
import SecOpent.ReasoningLoop.TerminalPhases
import SecOpent.ReasoningLoop.ControlRaces
import SecOpent.ReasoningLoop.StepBudget
import SecOpent.ReasoningLoop.WallClock
import SecOpent.ReasoningLoop.SchemaGate
import SecOpent.Assessments.LlmPlanner
import SecOpent.Python.UnitOfWork
import SecOpent.Mcp.Handlers
import SecOpent.Mcp.Atomicity
import SecOpent.Findings.Finalization
import SecOpent.Intel.Repository
import SecOpent.Reports.Coverage
import SecOpent.ReasoningLoop.RejectionStreaks
import SecOpent.ModelGateway.RemoteModel
import SecOpent.ModelGateway.Accounting
import SecOpent.Python.Tarfile
import SecOpent.Python.JsonDecoder
import SecOpent.Python.Regex
import SecOpent.Python.RegexPieces
import SecOpent.Python.RegexParts
import SecOpent.Python.TracedText
import SecOpent.Evidence.Redaction
import SecOpent.Checkpoints.WorkspaceSnapshots
import SecOpent.Checkpoints.PhaseRollback
import SecOpent.Adapters.StepObservations
import SecOpent.Adapters.JsonLines
import SecOpent.Python.Xml
import SecOpent.Adapters.Nmap
import SecOpent.Adapters.NmapReports
import SecOpent.Adapters.NmapCompleteness
import SecOpent.Findings.SharedIdentifiers
import SecOpent.Assessments.PlannerAgreement
import SecOpent.Updates.Manager
import SecOpent.Cases.Models
import SecOpent.Cases.Service
import SecOpent.Cases.Generation
import SecOpent.Cases.ReviewedCases
import SecOpent.Cases.Signing
import SecOpent.Oracle.Rescan
import SecOpent.AppModels.Models
import SecOpent.AppModels.Service
import SecOpent.AppModels.ValidatedModels
import SecOpent.AppModels.Import
import SecOpent.AppModels.Builder
import SecOpent.AppModels.Digests
import SecOpent.AppModels.RevisedVersions
import SecOpent.AppModels.Drift
import SecOpent.AppModels.ModelRegistry
import SecOpent.AppModels.PinnedModels
import SecOpent.Keys.Service
import SecOpent.Keys.Rotation
import SecOpent.PeerAgents.Normalize
import SecOpent.PeerAgents.Runs
import SecOpent.PeerAgents.LaunchScope
import SecOpent.Jobs.SucceededJobs
import SecOpent.Execution.Calls
import SecOpent.Execution.AuditTrail
import SecOpent.Execution.FruitlessRuns
import SecOpent.Execution.EmptyExecutions
import SecOpent.Execution.EgressSets
import SecOpent.Graph.DepthFirst
import SecOpent.Assessments.PlanGraphs
import SecOpent.Assessments.Planner
import SecOpent.Findings.Partition
import SecOpent.Scope.Validation
import SecOpent.Python.Strip
import SecOpent.Scope.AccountExclusion
import SecOpent.Scope.UrlForm
import SecOpent.ReasoningLoop.PortAgreement
import SecOpent.Python.Traversal
import SecOpent.Adapters.ContainerRunner
import SecOpent.Mcp.Scheduling
import SecOpent.Python.PosixPath
import SecOpent.Scope.UrlBoundaries
import SecOpent.Scope.NormalForms
import SecOpent.Scope.Idempotence
import SecOpent.Python.Codec
import SecOpent.Python.NetLocation
import SecOpent.Matching.Subsequence
import SecOpent.Findings.AttackChains
import SecOpent.Findings.ChainMatching
import SecOpent.Findings.ConfirmedChains
import SecOpent.Findings.ChainTasks
import SecOpent.ReasoningLoop.ChainBridge
import SecOpent.ReasoningLoop.HypothesisBookkeeping
import SecOpent.Oracle.ServerErrors
import SecOpent.ReasoningLoop.PauseLimit
import SecOpent.ReasoningLoop.ResumePhases
import SecOpent.ReasoningLoop.BudgetDenials
import SecOpent.ReasoningLoop.References
import SecOpent.ReasoningLoop.ScheduleAnswers
import SecOpent.Python.ZonedTime
import SecOpent.Scope.Repository
import SecOpent.Grants.Repository
import SecOpent.Python.JsonEquality
import SecOpent.Common.Canonical
import SecOpent.Python.OrderedRows
import SecOpent.ReasoningLoop.SqlRows
import SecOpent.ReasoningLoop.SqlLoopStore
import SecOpent.Audit.EventIds
import SecOpent.Audit.Redactions
import SecOpent.Transition.Histories
import SecOpent.Cases.PublishedCases
import SecOpent.Python.Raising
import SecOpent.CaseEngine.AstEvaluator
import SecOpent.CaseEngine.Interpreter
import SecOpent.CaseEngine.AssertionResults
import SecOpent.CaseEngine.BoundedSteps
import SecOpent.CaseEngine.Evaluation
import SecOpent.Audit.OutboxWorker
import SecOpent.Audit.OutboxCalls
import SecOpent.Audit.OutboxDelivery
import SecOpent.Oracle.StructureEquivalence
import SecOpent.Assets.Graph
import SecOpent.Assets.Repository
import SecOpent.Reports.Renderer
import SecOpent.Reports.RenderedSecrets
import SecOpent.Python.Floats
import SecOpent.Python.DecimalFloats
import SecOpent.Cases.LogicStrategies
import SecOpent.Cases.SignedTests
import SecOpent.Cases.IncrementalTests
import SecOpent.Cases.ViolatingProbes
import SecOpent.Python.JsonText
import SecOpent.Interfaces.EventStream
import SecOpent.Egress.NetworkNamespaces
import SecOpent.Updates.Distribution
import SecOpent.Mcp.AgentAuthority
