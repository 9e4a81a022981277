import FeatureGen.Lib.Checks
import FeatureGen.Lib.Decimal
import FeatureGen.Lib.Document
import FeatureGen.Lib.Json
import FeatureGen.Lib.KeySort
import FeatureGen.Lib.RowLocks
import FeatureGen.Lib.Sha256
import FeatureGen.Lib.SortedLog
import FeatureGen.Lib.Table
import FeatureGen.Lib.Text
import FeatureGen.Lib.Transition
import FeatureGen.Overlay.LlmSpend
import FeatureGen.Overlay.SpendCeiling
import FeatureGen.Runtime.Queue
import FeatureGen.Runtime.Lanes
import FeatureGen.Runtime.LaneAttempts
import FeatureGen.Runtime.Dispatch
import FeatureGen.Runtime.ExactlyOnce
import FeatureGen.Runtime.CostBudget
import FeatureGen.Runtime.ExternalCommands
import FeatureGen.Runtime.ExternalAccounting
import FeatureGen.Runtime.ExternalAttempts
import FeatureGen.Runtime.Timers
import FeatureGen.Events.Store
import FeatureGen.Projections.Runner
import FeatureGen.Projections.Interleaving
import FeatureGen.Projections.NoEventSkipped
import FeatureGen.Projections.Rebuild
import FeatureGen.Runtime.CostBreaker
import FeatureGen.Overlay.Identity
import FeatureGen.Overlay.State
import FeatureGen.Overlay.Projection
import FeatureGen.Overlay.Authority
import FeatureGen.Overlay.Lifecycle
import FeatureGen.Overlay.Commands
import FeatureGen.Overlay.Log
import FeatureGen.Overlay.ProjectionRefinement
import FeatureGen.Overlay.TwoParty
import FeatureGen.Overlay.StickyRejection
import FeatureGen.Gates.Tasks
import FeatureGen.Gates.Runs
import FeatureGen.Gates.Quorum
import FeatureGen.Gates.Escalation
import FeatureGen.Aggregates.Programs
import FeatureGen.Aggregates.RunLifecycle
import FeatureGen.Aggregates.Resume
import FeatureGen.Aggregates.Interleaving
import FeatureGen.Aggregates.TerminalRuns
import FeatureGen.Aggregates.Features
import FeatureGen.Aggregates.FeatureRuns
import FeatureGen.Aggregates.ActiveMap
import FeatureGen.Aggregates.Obligations
import FeatureGen.Materialize.GroupPlan
import FeatureGen.Materialize.GroupMembership
import FeatureGen.Overlay.ObjectRef
import FeatureGen.Formula.SchemaLeaves
import FeatureGen.Formula.SchemaV2
import FeatureGen.Formula.SchemaV3
import FeatureGen.Formula.ProposalSchema
import FeatureGen.Formula.Parse
import FeatureGen.Formula.Built
import FeatureGen.Formula.WireVersions
import FeatureGen.Formula.LeafChecks
import FeatureGen.Formula.Canonical
import FeatureGen.Formula.FormulaIdentity
import FeatureGen.Formula.CanonicalLeaves
import FeatureGen.Formula.FilterTruth
import FeatureGen.Formula.CanonicalFilter
import FeatureGen.Formula.FilterEquality
import FeatureGen.Lib.Bfs
import FeatureGen.Overlay.JoinPath
import FeatureGen.Overlay.JoinOrder
import FeatureGen.Materialize.Joins
import FeatureGen.Materialize.GovernedJoins
import FeatureGen.Lib.AppendLog
import FeatureGen.Materialize.RunEvents
import FeatureGen.Materialize.RunFold
import FeatureGen.Materialize.ActiveRevisions
import FeatureGen.Materialize.PublicationOrder
import FeatureGen.Materialize.AttemptsTruthful
import FeatureGen.Materialize.Requests
import FeatureGen.Materialize.Reconcile
import FeatureGen.Materialize.ProvedVerdicts
import FeatureGen.Materialize.SecondSweep
import FeatureGen.Materialize.GroupBindings
import FeatureGen.Materialize.CurrentPlan
import FeatureGen.Lib.Frames
import FeatureGen.Materialize.SpineDeclaration
import FeatureGen.Materialize.SpineNode
import FeatureGen.Materialize.PopulationKeys
import FeatureGen.Materialize.Availability
import FeatureGen.Materialize.ExpressionIR
import FeatureGen.Materialize.ReferenceCompleteness
import FeatureGen.Overlay.FieldAuthority
import FeatureGen.Overlay.BorrowedAuthority
import FeatureGen.Overlay.CallCoverage
import FeatureGen.Overlay.CodeGenerationJobs
import FeatureGen.Overlay.JobFence
import FeatureGen.Overlay.InvalidationEpochs
import FeatureGen.Overlay.InvalidationCalls
import FeatureGen.Overlay.DriftGate
import FeatureGen.Overlay.DriftExact
import FeatureGen.Lib.Calendar
import FeatureGen.Materialize.RunWindow
import FeatureGen.Materialize.WindowPartitions
import FeatureGen.Lib.Grouping
import FeatureGen.Materialize.FeatureIR
import FeatureGen.Materialize.PlanEnvelope
import FeatureGen.Materialize.FeatureIRV2
import FeatureGen.Materialize.PopulationLanding
import FeatureGen.Materialize.OneStory
import FeatureGen.Materialize.DeliveryLeases
import FeatureGen.Overlay.SafetyFloor
import FeatureGen.Overlay.RestrictionFloor
import FeatureGen.Lib.Sql
import FeatureGen.DataAgent.Physical
import FeatureGen.DataAgent.Relationship
import FeatureGen.DataAgent.Analysis
import FeatureGen.DataAgent.Snapshots
import FeatureGen.DataAgent.PlanIdentity
import FeatureGen.DataAgent.RunAnalysis
import FeatureGen.DataAgent.Answers
import FeatureGen.Overlay.TemporalResolver
import FeatureGen.Overlay.RowSelection
import FeatureGen.Overlay.FormulaDraftStore
import FeatureGen.Overlay.DraftCoupons
import FeatureGen.Overlay.DraftTickets
import FeatureGen.Overlay.CouponGenerations
import FeatureGen.Overlay.CrosswalkVerdicts
import FeatureGen.Overlay.FieldStores
import FeatureGen.Overlay.FieldResolution
import FeatureGen.Overlay.FieldCorrection
import FeatureGen.Overlay.FieldFrames
import FeatureGen.Overlay.FourEyes
import FeatureGen.Overlay.PendingRevalidation
import FeatureGen.StateMachine.GuardParsing
import FeatureGen.Materialize.RequirementPosition
import FeatureGen.Overlay.RefRoundTrip
import FeatureGen.Formula.LiteralSpelling
import FeatureGen.Lib.Levels
import FeatureGen.Overlay.JoinLayers
import FeatureGen.Overlay.JoinAttribution
import FeatureGen.Overlay.HonestPrefix
import FeatureGen.Events.JsonSchema
import FeatureGen.Events.Evolution
import FeatureGen.Events.BackwardCompatible
import FeatureGen.Overlay.Crosswalk
import FeatureGen.Materialize.CrosswalkJoins
import FeatureGen.Materialize.MeasuredComposition
import FeatureGen.Overlay.EvidenceOrder
import FeatureGen.Materialize.StagingManifests
import FeatureGen.Materialize.StagingCompleteness
import FeatureGen.Materialize.PublisherSelection
import FeatureGen.Materialize.UndefeatedEvidence
import FeatureGen.Materialize.BoundedSweeps
import FeatureGen.Lib.GroupCounts
import FeatureGen.DataAgent.RelationshipProbe
import FeatureGen.Lib.TimeOfDay
import FeatureGen.Materialize.FrozenJobs
import FeatureGen.Materialize.JobRoundTrip
import FeatureGen.Lib.PyTokens
import FeatureGen.Lib.PyExpr
import FeatureGen.Materialize.FilterRendering
import FeatureGen.Materialize.FilterMeaning
import FeatureGen.Gates.TimersOnce
import FeatureGen.Overlay.DraftLifecycle
