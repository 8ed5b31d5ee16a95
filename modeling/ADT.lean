import ADT.Workflow.Registry
import ADT.Lib.Search
import ADT.Lib.Superstep
import ADT.Workflow.Cycles
import ADT.Workflow.Supersteps
import ADT.Runtime.Handoff
import ADT.Runtime.Advance
import ADT.Workflow.Definition
import ADT.Workflow.Topology
import ADT.Workflow.Plan
import ADT.Runtime.Records
import ADT.Runtime.Run
import ADT.Lib.Interleave
import ADT.Workflow.Expansion
import ADT.Durable.AtMostOnce
import ADT.Durable.Lifecycle
import ADT.Workflow.Composition
import ADT.Workflow.Flattening
import ADT.Workflow.Preservation
import ADT.Lib.Alone
import ADT.Storage.Sequential
import ADT.Storage.Establishment
import ADT.Durable.Cancellation
import ADT.Durable.GraphNode
import ADT.Storage.History
import ADT.Durable.System
import ADT.Durable.AttemptHistory
import ADT.Durable.ManualRetry
import ADT.Durable.AutomaticRetry
import ADT.Durable.GraphFailure
import ADT.Durable.LaunchLease
import ADT.Durable.NodeAuthority
import ADT.Durable.DriverFence
import ADT.Protocol.AntiReplay
import ADT.Vault.CompareAndSet
import ADT.Lib.JsonText
import ADT.Checkpoint.Store
import ADT.Runtime.NodeGateway
import ADT.Checkpoint.Retries
import ADT.Admission.Idempotency
import ADT.Lib.Base64Url
import ADT.Lib.Utf8
import ADT.Checkpoint.Authority
import ADT.Lib.JsonSize
import ADT.Runtime.ResultCodec
import ADT.Runtime.Delivery
import ADT.Runtime.AdvanceResult
import ADT.Lib.Shape
import ADT.Provider.Policies
import ADT.Provider.Invocation
import ADT.Provider.Acceptance
import ADT.Bindings.Vault
import ADT.Bindings.McpService
import ADT.Bindings.Evolution
import ADT.Bindings.Manageable
import ADT.Bindings.Profiles
import ADT.Bindings.TrustTarget
import ADT.Lib.Faults
import ADT.Durable.CodexRunner
import ADT.Durable.CodexResults
import ADT.Session.Authority
import ADT.WorkIq.Tenancy
import ADT.WorkIq.Delegation
import ADT.Runner.Jobs
import ADT.Runner.Job
import ADT.Runner.Slot
import ADT.Runner.Reload
import ADT.Runner.Exclusive
import ADT.Runner.Idempotency
import ADT.Runner.Ledger
import ADT.Runner.Restart
import ADT.Runner.Files
import ADT.Runner.Completion
import ADT.Sqlite.Start
import ADT.Protocol.SingleUse
import ADT.Durable.Deadline
import ADT.Durable.CancelRecord
import ADT.Durable.SearchToken
import ADT.Durable.SearchAuthority
import ADT.Emergency.State
import ADT.Emergency.Latch
import ADT.Emergency.Runs
import ADT.Emergency.Held
import ADT.Emergency.Lift
import ADT.Artifacts.Contract
import ADT.Artifacts.Repository
import ADT.Artifacts.Validity
import ADT.Lib.Knowing
import ADT.Catalogue.Service
import ADT.Catalogue.Snapshot
import ADT.Catalogue.Discipline
import ADT.Catalogue.Growth
import ADT.Catalogue.Freshness
import ADT.Catalogue.Invalidation
import ADT.Workflow.Alike
import ADT.Runtime.PlanSchema
import ADT.Editor.State
import ADT.Editor.RoundTrip
import ADT.Checkpoint.Idempotence
import ADT.Lib.Ran
import ADT.Lib.JsonWeight
import ADT.Runtime.Redaction
import ADT.Runtime.ToolGate
import ADT.Runtime.Denials
import ADT.Lib.NetAddress
import ADT.Runtime.McpFetch
import ADT.Runtime.Budget
import ADT.Lib.Readings
import ADT.Runtime.DurableResult
import ADT.Workflow.Conversations
import ADT.Workflow.Renaming
import ADT.Workflow.References
import ADT.Workflow.Transfer
import ADT.Lib.UrlReference
import ADT.Session.ReturnTarget
import ADT.Release.Publication
import ADT.Lib.Utf8Cut
import ADT.Artifacts.SearchTool
import ADT.Artifacts.Diagnosis
import ADT.Artifacts.RoundTrip
import ADT.Sqlite.Bootstrap
import ADT.AppServer.Client
import ADT.AppServer.ProcessLoss
import ADT.AppServer.Attribution
import ADT.Lib.Pattern
import ADT.Lib.Lines
import ADT.AppServer.Stderr
import ADT.Release.Freshness
import ADT.Durable.ConversationBinding
import ADT.Lib.Serial
import ADT.Repository.Runs
import ADT.Executor.Runs
