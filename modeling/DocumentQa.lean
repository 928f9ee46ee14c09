import DocumentQa.Lib.Checked
import DocumentQa.Lib.Runs
import DocumentQa.Lib.Interleaving
import DocumentQa.Lib.Binary64
import DocumentQa.Lib.Calendar
import DocumentQa.Lib.SqlTable
import DocumentQa.Lib.Lifecycle
import DocumentQa.Lib.Json.Value
import DocumentQa.Lib.Json.Number
import DocumentQa.Lib.Json.Text
import DocumentQa.Lib.Json.Extent
import DocumentQa.Lib.Json.Parse
import DocumentQa.Lib.Json.RoundTrip
import DocumentQa.Lib.Json.Reading
import DocumentQa.Lib.Json.Chars
import DocumentQa.Lib.Json.Walk
import DocumentQa.Python.Text
import DocumentQa.Lib.Sha256
import DocumentQa.Lib.Spacing
import DocumentQa.Lib.Paging
import DocumentQa.Lib.Regex
import DocumentQa.Python.Search
import DocumentQa.Python.Errors
import DocumentQa.Python.Datetime
import DocumentQa.Python.Json
import DocumentQa.Python.Lines
import DocumentQa.Python.Report
import DocumentQa.Jobs.Model
import DocumentQa.Jobs.Contract
import DocumentQa.Jobs.Repository
import DocumentQa.Jobs.Machine
import DocumentQa.Jobs.Evolution
import DocumentQa.Jobs.Mutators
import DocumentQa.Jobs.Invariants
import DocumentQa.Jobs.Admission
import DocumentQa.Jobs.Claims
import DocumentQa.Jobs.Workers
import DocumentQa.Transfer.NumberText
import DocumentQa.Transfer.Canonical
import DocumentQa.Transfer.Identity
import DocumentQa.Transfer.Backup
import DocumentQa.Browser.Objects
import DocumentQa.Browser.Canonical
import DocumentQa.Browser.Agreement
import DocumentQa.Workspace.Context
import DocumentQa.Workspace.Store
import DocumentQa.Workspace.Tables
import DocumentQa.Transfer.Service
import DocumentQa.Transfer.Import
import DocumentQa.Transfer.Envelope
import DocumentQa.Transfer.Commit
import DocumentQa.Transfer.Delivery
import DocumentQa.Workspace.Payloads
import DocumentQa.Workspace.Collections
import DocumentQa.Workspace.System
import DocumentQa.Workspace.Steps
import DocumentQa.Workspace.Evolution
import DocumentQa.Workspace.Rows
import DocumentQa.Workspace.Counting
import DocumentQa.Workspace.Commits
import DocumentQa.Workspace.Parents
import DocumentQa.Workspace.Views
import DocumentQa.Workspace.Members
import DocumentQa.Workspace.Capacity
import DocumentQa.Workspace.Export
import DocumentQa.Lib.Ranking
import DocumentQa.Retrieval.Lookup
import DocumentQa.Retrieval.HybridRetriever
import DocumentQa.Retrieval.Inspection
import DocumentQa.Evaluation.RequestLedger
import DocumentQa.Evaluation.LedgerRecords
import DocumentQa.Evaluation.LedgerProtocol
import DocumentQa.Evaluation.ProviderBudget
import DocumentQa.Evaluation.BudgetProtocol
import DocumentQa.Evaluation.GenerationPhase
import DocumentQa.Evaluation.GenerationTurns
import DocumentQa.Evaluation.JudgePhase
import DocumentQa.Evaluation.JudgeTurns
import DocumentQa.Evaluation.Evidence
import DocumentQa.Evaluation.EvidenceRoundTrip
import DocumentQa.Evaluation.NativeProtocol
import DocumentQa.Evaluation.NativeRoundTrip
import DocumentQa.Evaluation.NativeAnalysis
import DocumentQa.Agent.RunView
import DocumentQa.Agent.Evaluation
import DocumentQa.Agent.Report
import DocumentQa.Agent.Readable
import DocumentQa.Agent.RoundTrip
import DocumentQa.Agent.Agreement
import DocumentQa.Reader.OriginalLocation
import DocumentQa.Reader.StructuredDocument
import DocumentQa.Reader.StructuredParser
import DocumentQa.Reader.StructuredPaging
import DocumentQa.Reader.ContentPresentation
import DocumentQa.Reader.StructuredLocation
import DocumentQa.Ingestion.TableExtractor
import DocumentQa.Ingestion.TableAlignment
import DocumentQa.Generation.ComparativeContext
import DocumentQa.Generation.ComparativeSelection
import DocumentQa.Generation.QueryDecomposer
import DocumentQa.Generation.PlanSafety
import DocumentQa.Lib.Utf8
import DocumentQa.Lib.Json.Ends
import DocumentQa.Browser.EventStream
import DocumentQa.Lib.Segments
import DocumentQa.Reader.OriginalViewer
import DocumentQa.Lib.Rounding
import DocumentQa.Lib.Sweep
import DocumentQa.Workspace.Attribution
import DocumentQa.Workspace.AttributionSummary
import DocumentQa.Workspace.AttributionRuns
import DocumentQa.Generation.CompanyEntities
import DocumentQa.Generation.GrowthComparison
import DocumentQa.Lib.Expansion
import DocumentQa.Lib.Intervals
import DocumentQa.Discovery.Snippet
import DocumentQa.Ingestion.SectionExtractor
import DocumentQa.Ingestion.SectionFaithful
import DocumentQa.Lib.Packing
import DocumentQa.Ingestion.Chunker
import DocumentQa.Ingestion.TableMarkdown
import DocumentQa.Retrieval.MarkdownRows
import DocumentQa.Evaluation.ContextPacking
import DocumentQa.Evaluation.PackingContract
import DocumentQa.Agent.Research
import DocumentQa.Agent.ResearchLedger
import DocumentQa.Agent.ResearchSummary
import DocumentQa.Retrieval.SemanticCache
import DocumentQa.Retrieval.CacheIsolation
import DocumentQa.Lib.Shrinking
import DocumentQa.Agent.Observation
import DocumentQa.Agent.ObservationProjection
import DocumentQa.Lib.Base64
import DocumentQa.Lib.Json.Ascii
import DocumentQa.Telemetry.Logs
import DocumentQa.Telemetry.LogPages
import DocumentQa.Evaluation.JobStore
import DocumentQa.Evaluation.FrozenJobs
import DocumentQa.Jobs.Outcomes
import DocumentQa.Evaluation.JobService
import DocumentQa.Evaluation.JobProtocol
import DocumentQa.Lib.Numbered
import DocumentQa.Agent.EventPages
import DocumentQa.Browser.AgentEvents
import DocumentQa.Agent.EventFeed
import DocumentQa.Lib.Dialogue
import DocumentQa.Agent.Decision
import DocumentQa.Agent.Orchestrator
import DocumentQa.Agent.Orchestration
