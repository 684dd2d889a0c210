import ReplicaLoad.Bits
import ReplicaLoad.Cluster.Basic
import ReplicaLoad.Cluster.Namespaces
import ReplicaLoad.Command.Arguments
import ReplicaLoad.Command.Execution
import ReplicaLoad.Command.Stamp
import ReplicaLoad.Decimal.Notation
import ReplicaLoad.Decimal.Shortest
import ReplicaLoad.FileTree
import ReplicaLoad.LoadTest.Basic
import ReplicaLoad.LoadTest.Check
import ReplicaLoad.LoadTest.Load
import ReplicaLoad.LoadTest.Schema
import ReplicaLoad.LoadTest.ValueForm
import ReplicaLoad.Main
import ReplicaLoad.Measurement.Basic
import ReplicaLoad.Measurement.Builtin
import ReplicaLoad.Object.Basic
import ReplicaLoad.Object.Identity
import ReplicaLoad.Pacing.Draw
import ReplicaLoad.Pacing.Duration
import ReplicaLoad.Pacing.Pacing
import ReplicaLoad.Pacing.Timeline
import ReplicaLoad.Pacing.Trial
import ReplicaLoad.Proofs.ApiVersions
import ReplicaLoad.Proofs.AttemptedOperations
import ReplicaLoad.Proofs.ByteOrder
import ReplicaLoad.Proofs.CallJournal
import ReplicaLoad.Proofs.CallRuns
import ReplicaLoad.Proofs.CallSteps
import ReplicaLoad.Proofs.CheckedTests
import ReplicaLoad.Proofs.ClosedLoop
import ReplicaLoad.Proofs.ClusterHistory
import ReplicaLoad.Proofs.CrewRuns
import ReplicaLoad.Proofs.DictEntries
import ReplicaLoad.Proofs.DisjointPhases
import ReplicaLoad.Proofs.EncodedTests
import ReplicaLoad.Proofs.EntryPlans
import ReplicaLoad.Proofs.ExpressionSpans
import ReplicaLoad.Proofs.FileWrites
import ReplicaLoad.Proofs.FirstEntries
import ReplicaLoad.Proofs.FirstViolation
import ReplicaLoad.Proofs.InOrder
import ReplicaLoad.Proofs.Interleaving
import ReplicaLoad.Proofs.MeasurementHistory
import ReplicaLoad.Proofs.MetadataFields
import ReplicaLoad.Proofs.ObjectCalls
import ReplicaLoad.Proofs.OpenLoop
import ReplicaLoad.Proofs.OperationEffects
import ReplicaLoad.Proofs.PhaseCounts
import ReplicaLoad.Proofs.PhaseCourse
import ReplicaLoad.Proofs.PhaseLanes
import ReplicaLoad.Proofs.PhasePlans
import ReplicaLoad.Proofs.PhaseReplicas
import ReplicaLoad.Proofs.PlainLines
import ReplicaLoad.Proofs.Quiescence
import ReplicaLoad.Proofs.RecordedVersions
import ReplicaLoad.Proofs.RefusedRuns
import ReplicaLoad.Proofs.RepeatedPhases
import ReplicaLoad.Proofs.RepeatedTests
import ReplicaLoad.Proofs.ReplicaAddresses
import ReplicaLoad.Proofs.ReplicaLifecycle
import ReplicaLoad.Proofs.ReplicaNames
import ReplicaLoad.Proofs.ReplicaTracking
import ReplicaLoad.Proofs.ScopeCleanup
import ReplicaLoad.Proofs.ScopeIsolation
import ReplicaLoad.Proofs.ScopeNamespaces
import ReplicaLoad.Proofs.SharedErrors
import ReplicaLoad.Proofs.SharedLimits
import ReplicaLoad.Proofs.SleepLines
import ReplicaLoad.Proofs.SleepSteps
import ReplicaLoad.Proofs.SpanScans
import ReplicaLoad.Proofs.StepErrors
import ReplicaLoad.Proofs.StepSequence
import ReplicaLoad.Proofs.StepUnits
import ReplicaLoad.Proofs.StoredObjects
import ReplicaLoad.Proofs.SummaryFiles
import ReplicaLoad.Proofs.TemplateHeads
import ReplicaLoad.Proofs.TemplateIdentity
import ReplicaLoad.Proofs.TemplateSnapshots
import ReplicaLoad.Proofs.TestErrors
import ReplicaLoad.Proofs.TimelineMoves
import ReplicaLoad.Proofs.TimelineTicks
import ReplicaLoad.Proofs.TimerHistory
import ReplicaLoad.Proofs.TouchedNamespaces
import ReplicaLoad.Proofs.TrialCourse
import ReplicaLoad.Proofs.TrialSteps
import ReplicaLoad.Proofs.UnitErrors
import ReplicaLoad.Proofs.UnitProgress
import ReplicaLoad.Proofs.VersionHistory
import ReplicaLoad.Proofs.WantedCounts
import ReplicaLoad.Run.Action
import ReplicaLoad.Run.Environment
import ReplicaLoad.Run.Error
import ReplicaLoad.Run.ErrorList
import ReplicaLoad.Run.Namespaces
import ReplicaLoad.Run.Phase
import ReplicaLoad.Run.Step
import ReplicaLoad.Run.Test
import ReplicaLoad.Settings.Basic
import ReplicaLoad.Settings.Layer
import ReplicaLoad.Settings.Load
import ReplicaLoad.Settings.Scalar
import ReplicaLoad.State.Instances
import ReplicaLoad.State.Versions
import ReplicaLoad.Table
import ReplicaLoad.Template.Datum
import ReplicaLoad.Template.Expression
import ReplicaLoad.Template.Filter
import ReplicaLoad.Template.Grammar
import ReplicaLoad.Template.Library
import ReplicaLoad.Template.Operation
import ReplicaLoad.Template.Render
import ReplicaLoad.Template.Span
import ReplicaLoad.Template.Token
import ReplicaLoad.Text.Blank
import ReplicaLoad.Text.Digits
import ReplicaLoad.Text.LetterCase
import ReplicaLoad.Text.Printable
import ReplicaLoad.Text.Quoted
import ReplicaLoad.Toml.Reading
import ReplicaLoad.Toml.Scalar
import ReplicaLoad.Toml.Tree
import ReplicaLoad.Value.Basic
import ReplicaLoad.Value.JsonReader
import ReplicaLoad.Value.JsonText
import ReplicaLoad.Yaml.Cursor
import ReplicaLoad.Yaml.Lexer
import ReplicaLoad.Yaml.Node
import ReplicaLoad.Yaml.Reading
import ReplicaLoad.Yaml.Scalar
import ReplicaLoad.Yaml.ScalarText
import ReplicaLoad.Yaml.Token
