import DataEngLab.Lib.Text
import DataEngLab.Lib.Utc
import DataEngLab.Lib.Json
import DataEngLab.Lib.JsonText
import DataEngLab.Lib.JsonRoundTrip
import DataEngLab.Lib.JsonDumps
import DataEngLab.Lib.JsonBounds
import DataEngLab.Lib.JsonDecoded
import DataEngLab.Lib.Digest
import DataEngLab.Lib.Utf8
import DataEngLab.Lib.JsonRaw
import DataEngLab.Lib.JsonCanonical
import DataEngLab.Lib.IsoFormat
import DataEngLab.Lib.Dict
import DataEngLab.Checkpoints.Policy
import DataEngLab.Checkpoints.Evaluate
import DataEngLab.Checkpoints.Eligible
import DataEngLab.Lib.Prog
import DataEngLab.Lib.Pool
import DataEngLab.Lib.Play
import DataEngLab.Lib.Tenure
import DataEngLab.Lib.Party
import DataEngLab.Checkpoints.Records
import DataEngLab.Checkpoints.Canonical
import DataEngLab.Checkpoints.Store
import DataEngLab.Checkpoints.Gateway
import DataEngLab.Checkpoints.Leases
import DataEngLab.Checkpoints.LeaseRecord
import DataEngLab.Checkpoints.Planner
import DataEngLab.Checkpoints.Attempts
import DataEngLab.Checkpoints.Operations
import DataEngLab.Checkpoints.Service
import DataEngLab.Checkpoints.Calls
import DataEngLab.Checkpoints.Protocol
import DataEngLab.Checkpoints.Rules
import DataEngLab.Checkpoints.LeaseWrites
import DataEngLab.Checkpoints.LeaseRuns
import DataEngLab.Checkpoints.Scene
import DataEngLab.Checkpoints.SingleWriter
import DataEngLab.Checkpoints.LeaseClocks
import DataEngLab.Checkpoints.PlanRoundTrip
import DataEngLab.Checkpoints.Dispatch
import DataEngLab.Checkpoints.Metrics
import DataEngLab.Checkpoints.Counters
import DataEngLab.Checkpoints.Backend
import DataEngLab.Checkpoints.MetricsRuns
import DataEngLab.Checkpoints.NotebookLease
import DataEngLab.Checkpoints.NotebookRuns
import DataEngLab.Datasets.Store
import DataEngLab.Datasets.S3
import DataEngLab.Datasets.Leases
import DataEngLab.Datasets.Rules
import DataEngLab.Datasets.LeaseRecord
import DataEngLab.Datasets.LeaseTurns
import DataEngLab.Datasets.Scene
import DataEngLab.Datasets.LeaseRuns
import DataEngLab.Lib.Rounding
import DataEngLab.Lib.Decimal
import DataEngLab.Lib.DecimalExact
import DataEngLab.TrinoBi.Contracts
import DataEngLab.TrinoBi.Lakehouse
import DataEngLab.TrinoBi.Tasks
import DataEngLab.TrinoBi.Binding
import DataEngLab.TrinoBi.Reconciliation
import DataEngLab.Lib.Frames
import DataEngLab.Lib.FrameWindows
import DataEngLab.GhArchive.Transforms
import DataEngLab.GhArchive.Sessions
import DataEngLab.Lib.Trace
import DataEngLab.Lib.Kleene
import DataEngLab.Quality.Contract
import DataEngLab.Quality.Calls
import DataEngLab.Quality.Transforms
import DataEngLab.Quality.Store
import DataEngLab.Quality.Pipeline
import DataEngLab.Quality.Steps
import DataEngLab.Quality.Returned
import DataEngLab.Quality.Guarantee
import DataEngLab.Quality.Outcomes
import DataEngLab.Quality.Controlled
import DataEngLab.Quality.Ratios
import DataEngLab.Lib.Sql
import DataEngLab.Quality.Dashboards
import DataEngLab.Quality.Agreement
import DataEngLab.Lib.Dynamic
import DataEngLab.Datasets.Registry
import DataEngLab.Datasets.Publication.Plans
import DataEngLab.Datasets.Publication.Documents
import DataEngLab.Datasets.Publication.Codecs
import DataEngLab.Datasets.Publication.Resolve
import DataEngLab.Datasets.Publication.Reads
import DataEngLab.Datasets.Publication.Resolved
import DataEngLab.Datasets.Publication.HonestStore
import DataEngLab.Lib.Merge
import DataEngLab.Scenarios.CdcStream
import DataEngLab.Lib.Scripted
import DataEngLab.Checkpoints.Projections
import DataEngLab.Checkpoints.ProjectionRuns
import DataEngLab.Checkpoints.ProjectionAgreement
import DataEngLab.Lib.Urllib
import DataEngLab.Checkpoints.Clients
import DataEngLab.Checkpoints.ClientRequests
import DataEngLab.Lib.Histories
import DataEngLab.MovieLens.Features
import DataEngLab.MovieLens.Pipeline
import DataEngLab.MovieLens.Returned
import DataEngLab.MovieLens.Generations
import DataEngLab.Lib.JsonWidth
import DataEngLab.Datasets.Publication.Service
import DataEngLab.GhArchive.Sources
import DataEngLab.GhArchive.Resolutions
import DataEngLab.GhArchive.Agreement
import DataEngLab.Lib.JsonFloats
import DataEngLab.TrinoBi.Client
import DataEngLab.TrinoBi.Exchanges
import DataEngLab.TrinoBi.Paging
import DataEngLab.TrinoBi.Conversation
import DataEngLab.Checkpoints.Shards
import DataEngLab.Checkpoints.Listing
import DataEngLab.Checkpoints.DeleteCounters
import DataEngLab.Checkpoints.Prefixes
import DataEngLab.Checkpoints.LaterEvaluations
import DataEngLab.Lib.Runs
import DataEngLab.Checkpoints.TerminalRuns
import DataEngLab.Checkpoints.FaultFree
import DataEngLab.Checkpoints.Rejections
import DataEngLab.Checkpoints.Retries
import DataEngLab.Lib.Beats
import DataEngLab.Datasets.Keepalive
import DataEngLab.Datasets.Sites
import DataEngLab.Datasets.Renewals
import DataEngLab.Datasets.Pauses
import DataEngLab.Datasets.Survival
import DataEngLab.Datasets.Publication.History
import DataEngLab.Datasets.Publication.HistoryLimit
import DataEngLab.Lib.Lines
import DataEngLab.Docs.Fences
import DataEngLab.Datasets.ExtractionSteps
import DataEngLab.Datasets.Extraction
import DataEngLab.Datasets.Archives
import DataEngLab.Datasets.ArchiveNames
import DataEngLab.Datasets.ExtractionOutcome
import DataEngLab.Datasets.ExtractionRuns
import DataEngLab.Security.Evidence
import DataEngLab.Security.Contract
import DataEngLab.Docs.Images
import DataEngLab.Docs.DiagramText
import DataEngLab.Docs.Diagrams
import DataEngLab.Docs.Rewrite
import DataEngLab.Docs.DiagramExtraction
import DataEngLab.Docs.ImageAgreement
import DataEngLab.Release.Changelog
import DataEngLab.Release.Hidden
import DataEngLab.Checkpoints.Values
import DataEngLab.Inspection.Decimals
import DataEngLab.Inspection.XmlCuts
import DataEngLab.Inspection.CsvLines
import DataEngLab.Inspection.XmlReader
import DataEngLab.Tpch.StarSchema
import DataEngLab.Tpch.Conservation
import DataEngLab.Lib.Posix
import DataEngLab.Lib.Paths
import DataEngLab.Lib.Xml
import DataEngLab.Lib.Nesting
import DataEngLab.Lib.JsonScanned
import DataEngLab.Lib.Joins
import DataEngLab.Lib.Pieces
import DataEngLab.Lib.XmlSyntax
import DataEngLab.Lib.Edits
import DataEngLab.Lib.Checks
import DataEngLab.Lib.Codecs
import DataEngLab.Lib.Cursor
import DataEngLab.Lib.Alarms
import DataEngLab.Observability.Resolver
import DataEngLab.Observability.Probe
import DataEngLab.Observability.Reports
import DataEngLab.Observability.SingleFlight
import DataEngLab.Observability.Catalog
import DataEngLab.GhArchive.RawRecords
import DataEngLab.GhArchive.RawPreflight
import DataEngLab.Datasets.HttpFetch
