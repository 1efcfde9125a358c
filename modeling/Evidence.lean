import Evidence.Bundle.BoundaryCheck
import Evidence.Bundle.BoundaryReplay
import Evidence.Bundle.CargoArtifacts
import Evidence.Bundle.CargoMetadata
import Evidence.Bundle.CompletionOrder
import Evidence.Bundle.FailureBlocks
import Evidence.Bundle.FailureMessages
import Evidence.Bundle.FailureRun
import Evidence.Bundle.Faithfulness
import Evidence.Bundle.FileTree
import Evidence.Bundle.InputPlan
import Evidence.Bundle.InputScope
import Evidence.Bundle.MetadataJson
import Evidence.Bundle.Nextest
import Evidence.Bundle.NextestReconcile
import Evidence.Bundle.OutOfScope
import Evidence.Bundle.ResolvedIdentities
import Evidence.Bundle.Sha256Sums
import Evidence.Bundle.Signing
import Evidence.Bundle.TestRun
import Evidence.Bundle.TestSummary
import Evidence.Bundle.TestTotals
import Evidence.Cli.CheckSource
import Evidence.Cli.CopyTrace
import Evidence.Cli.TestPhase
import Evidence.Cli.TracePhase
import Evidence.Cli.Verify
import Evidence.Cli.VerifyError
import Evidence.Cli.VerifyFormats
import Evidence.Context.Exactness
import Evidence.Context.Lookup
import Evidence.Context.Resolver
import Evidence.Context.RollUp
import Evidence.Context.SelectorKinds
import Evidence.Corpus.ApprovalBoundary
import Evidence.Corpus.ApprovedClaims
import Evidence.Corpus.Digest
import Evidence.Corpus.Drift.Accounting
import Evidence.Corpus.Drift.Alike
import Evidence.Corpus.Drift.Compare
import Evidence.Corpus.Drift.Findings
import Evidence.Corpus.Drift.Identical
import Evidence.Corpus.Drift.Nodes
import Evidence.Corpus.Drift.Partition
import Evidence.Corpus.Drift.Patches
import Evidence.Corpus.Drift.Presentation
import Evidence.Corpus.Drift.Reidentified
import Evidence.Corpus.Drift.Renamed
import Evidence.Corpus.Drift.Silent
import Evidence.Corpus.EffectiveContent
import Evidence.Corpus.EffectiveGraph
import Evidence.Corpus.Graph.Basic
import Evidence.Corpus.Graph.Nodes
import Evidence.Corpus.Graph.Supersession
import Evidence.Corpus.Graph.Validate
import Evidence.Corpus.Graph.Validation
import Evidence.Corpus.Ingest.Assemble
import Evidence.Corpus.Ingest.HeadingPath
import Evidence.Corpus.Ingest.HeadingTrails
import Evidence.Corpus.Ingest.Html.Accounts
import Evidence.Corpus.Ingest.Html.Adapter
import Evidence.Corpus.Ingest.Html.Descent
import Evidence.Corpus.Ingest.Html.Exclusion
import Evidence.Corpus.Ingest.Html.Forest
import Evidence.Corpus.Ingest.Html.HeadingTrail
import Evidence.Corpus.Ingest.Html.Moves
import Evidence.Corpus.Ingest.Html.Retention
import Evidence.Corpus.Ingest.Html.RowLayout
import Evidence.Corpus.Ingest.Html.TableLayout
import Evidence.Corpus.Ingest.Html.Walk
import Evidence.Corpus.Ingest.Markdown.Adapter
import Evidence.Corpus.Ingest.Markdown.Anchors
import Evidence.Corpus.Ingest.Markdown.Growth
import Evidence.Corpus.Ingest.Markdown.HeadingTrail
import Evidence.Corpus.Ingest.Markdown.Numbering
import Evidence.Corpus.Ingest.Markdown.Walk
import Evidence.Corpus.Ingest.Normalize
import Evidence.Corpus.Ingest.Pdf.BboxText
import Evidence.Corpus.Ingest.Pdf.BboxWalk
import Evidence.Corpus.Ingest.Pdf.Conserved
import Evidence.Corpus.Ingest.Pdf.Project
import Evidence.Corpus.Ingest.Pdf.Sections
import Evidence.Corpus.Ingest.Projection
import Evidence.Corpus.Ingest.Recipe
import Evidence.Corpus.Ingest.RecipeIdentity
import Evidence.Corpus.InsertOrder
import Evidence.Corpus.Legacy
import Evidence.Corpus.Lifecycle
import Evidence.Corpus.Proposal.Record
import Evidence.Corpus.Proposal.Store
import Evidence.Corpus.ReviewChains
import Evidence.Corpus.ReviewContent
import Evidence.Corpus.Source.Lineage
import Evidence.Corpus.Source.Lock
import Evidence.Corpus.Source.Transition
import Evidence.Corpus.SourceGraph.Basic
import Evidence.Corpus.SourceGraph.Committed
import Evidence.Corpus.SourceGraph.Identity
import Evidence.Corpus.SourceGraph.Locator
import Evidence.Corpus.SourceGraph.Reconcile
import Evidence.Corpus.SourceGraph.Renaming
import Evidence.Corpus.SourceGraph.Render
import Evidence.Corpus.SourceGraph.Validate
import Evidence.Corpus.SourceGraph.WellFormed
import Evidence.Corpus.SourcePatch.Apply
import Evidence.Corpus.SourcePatch.Basic
import Evidence.Corpus.SourcePatch.Conservation
import Evidence.Corpus.SourcePatch.Digest
import Evidence.Corpus.SourcePatch.Frame
import Evidence.Corpus.SourcePatch.Labels
import Evidence.Corpus.SourcePatch.Message
import Evidence.Corpus.SourcePatch.Order
import Evidence.Corpus.SourcePatch.Preconditions
import Evidence.Corpus.SourcePatch.Records
import Evidence.Corpus.SourcePatch.Splice
import Evidence.Corpus.SourcePatch.Validate
import Evidence.Coverage.Compliance
import Evidence.Coverage.LlvmCovJson
import Evidence.Coverage.Thresholds
import Evidence.Diagnostic
import Evidence.Diff.Artifacts
import Evidence.Diff.AssurancePrecedence
import Evidence.Diff.Basic
import Evidence.Diff.Categories
import Evidence.Diff.Compare
import Evidence.Diff.Exchange
import Evidence.Diff.Mirror
import Evidence.Diff.Precedence
import Evidence.Diff.SelfComparison
import Evidence.Diff.Symmetry
import Evidence.Diff.TestsCategory
import Evidence.Diff.TraceGraph
import Evidence.F64
import Evidence.Floors.Lexical
import Evidence.Floors.Ratchet
import Evidence.Floors.Walker
import Evidence.Formats
import Evidence.Framing
import Evidence.Lib.Blocks
import Evidence.Lib.BreadthFirst
import Evidence.Lib.Check
import Evidence.Lib.Climb
import Evidence.Lib.Codec
import Evidence.Lib.Collect
import Evidence.Lib.Counter
import Evidence.Lib.Emission
import Evidence.Lib.Fips180
import Evidence.Lib.Grid
import Evidence.Lib.Growth
import Evidence.Lib.Json
import Evidence.Lib.LastWins
import Evidence.Lib.LayeredVisit
import Evidence.Lib.Lists
import Evidence.Lib.Pairing
import Evidence.Lib.Paths
import Evidence.Lib.Queues
import Evidence.Lib.Quota
import Evidence.Lib.References
import Evidence.Lib.RollUp
import Evidence.Lib.Segments
import Evidence.Lib.Sorting
import Evidence.Lib.Store
import Evidence.Lib.Succession
import Evidence.Lib.Tickets
import Evidence.Lib.Toml
import Evidence.Lib.Worklist
import Evidence.Lines
import Evidence.Mcp.Subprocess
import Evidence.Text
import Evidence.Trace.Backfill
import Evidence.Trace.BackfillLayers
import Evidence.Trace.BackfillReferences
import Evidence.Trace.Backlinks
import Evidence.Trace.Entries
import Evidence.Trace.EntryOrder
import Evidence.Trace.EvidenceState
import Evidence.Trace.GapAttribution
import Evidence.Trace.Matrix
import Evidence.Trace.MatrixConsistency
import Evidence.Trace.MatrixPaths
import Evidence.Trace.NoFalsePass
import Evidence.Trace.Registration
import Evidence.Trace.ReportRollUp
import Evidence.Trace.ReportView
import Evidence.Trace.RequirementReport
import Evidence.Trace.SelectorCheck
import Evidence.Trace.Selectors
import Evidence.Trace.UniqueEntries
import Evidence.Trace.ValidatedGraph
import Evidence.Trace.Validation
import Evidence.Verify.Bundle
import Evidence.Verify.ContentPasses
import Evidence.Verify.DigestPlanes
import Evidence.Verify.Reproduction
import Evidence.Verify.ReproductionExact
import Evidence.Verify.Sums
import Evidence.Verify.SumsRoundTrip
import Evidence.Verify.TamperEvidence
import Evidence.Verify.TestSummaryCheck
