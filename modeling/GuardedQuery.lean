import GuardedQuery.AdaptiveSort
import GuardedQuery.Base64
import GuardedQuery.Binary64.Basic
import GuardedQuery.Binary64.Decimal
import GuardedQuery.Command.Arguments
import GuardedQuery.Command.Basic
import GuardedQuery.Command.Error
import GuardedQuery.Command.Projections
import GuardedQuery.Dict
import GuardedQuery.Engine.Basic
import GuardedQuery.Engine.Error
import GuardedQuery.Execution.Answer
import GuardedQuery.Execution.Groups
import GuardedQuery.Execution.Join
import GuardedQuery.Execution.Response
import GuardedQuery.Execution.Run
import GuardedQuery.Execution.Sequence
import GuardedQuery.Instant
import GuardedQuery.Journal.Audit
import GuardedQuery.Journal.Event
import GuardedQuery.Journal.Line
import GuardedQuery.Journal.Metrics
import GuardedQuery.Journal.Scope
import GuardedQuery.Json.Decode
import GuardedQuery.Json.Node
import GuardedQuery.Json.Token
import GuardedQuery.Json.Value
import GuardedQuery.Json.Writer
import GuardedQuery.Main
import GuardedQuery.Order
import GuardedQuery.Page.Basic
import GuardedQuery.Page.Cursor
import GuardedQuery.Policy.Basic
import GuardedQuery.Policy.Entity
import GuardedQuery.Predicate.Basic
import GuardedQuery.Predicate.Compile
import GuardedQuery.Predicate.Matching
import GuardedQuery.Projection.Binding
import GuardedQuery.Projection.Offer
import GuardedQuery.Projection.Registry
import GuardedQuery.Proofs.AccessorTables
import GuardedQuery.Proofs.Accounting
import GuardedQuery.Proofs.AdaptiveSort.Images
import GuardedQuery.Proofs.AdaptiveSort.Lists
import GuardedQuery.Proofs.AdaptiveSort.Merging
import GuardedQuery.Proofs.AdaptiveSort.Stability
import GuardedQuery.Proofs.Admission
import GuardedQuery.Proofs.Agreement
import GuardedQuery.Proofs.AlikeAnswers
import GuardedQuery.Proofs.AlikeRows
import GuardedQuery.Proofs.Base64
import GuardedQuery.Proofs.Binary64
import GuardedQuery.Proofs.BuilderMistakes
import GuardedQuery.Proofs.BuiltQueries
import GuardedQuery.Proofs.Calls
import GuardedQuery.Proofs.ColumnOrder
import GuardedQuery.Proofs.ComparisonLaws
import GuardedQuery.Proofs.Conforming
import GuardedQuery.Proofs.Cursor
import GuardedQuery.Proofs.CursorTexts
import GuardedQuery.Proofs.Dict
import GuardedQuery.Proofs.ElementShapes
import GuardedQuery.Proofs.EntityLookups
import GuardedQuery.Proofs.EntityName
import GuardedQuery.Proofs.Evaluation
import GuardedQuery.Proofs.ExactKeys
import GuardedQuery.Proofs.Failures
import GuardedQuery.Proofs.FieldLookups
import GuardedQuery.Proofs.FilterMeaning
import GuardedQuery.Proofs.FilterTests
import GuardedQuery.Proofs.GroupSummaries
import GuardedQuery.Proofs.GroupedRows
import GuardedQuery.Proofs.Groups
import GuardedQuery.Proofs.HiddenFields
import GuardedQuery.Proofs.Identities
import GuardedQuery.Proofs.InsertionOrder
import GuardedQuery.Proofs.IntegerSums
import GuardedQuery.Proofs.JoinKinds
import GuardedQuery.Proofs.JoinMatches
import GuardedQuery.Proofs.JoinedMembers
import GuardedQuery.Proofs.JoinedRows
import GuardedQuery.Proofs.Json.Bounds
import GuardedQuery.Proofs.Json.Delimited
import GuardedQuery.Proofs.Json.Documents
import GuardedQuery.Proofs.Json.Lexing
import GuardedQuery.Proofs.Json.Numbers
import GuardedQuery.Proofs.Json.Quoted
import GuardedQuery.Proofs.Json.Reading
import GuardedQuery.Proofs.KeptBindings
import GuardedQuery.Proofs.LoadedPolicies
import GuardedQuery.Proofs.Loading
import GuardedQuery.Proofs.LogLines
import GuardedQuery.Proofs.Mistyped
import GuardedQuery.Proofs.Outcome
import GuardedQuery.Proofs.PageBlocks
import GuardedQuery.Proofs.PageBounds
import GuardedQuery.Proofs.PageWalk
import GuardedQuery.Proofs.Pages
import GuardedQuery.Proofs.PlainAnswers
import GuardedQuery.Proofs.Policies
import GuardedQuery.Proofs.ReadQueries
import GuardedQuery.Proofs.ReadableQueries
import GuardedQuery.Proofs.Registrations
import GuardedQuery.Proofs.Registries
import GuardedQuery.Proofs.Reversal
import GuardedQuery.Proofs.RowOrder
import GuardedQuery.Proofs.Runs
import GuardedQuery.Proofs.Selections
import GuardedQuery.Proofs.SentQueries
import GuardedQuery.Proofs.Sorting
import GuardedQuery.Proofs.StableSorting
import GuardedQuery.Proofs.Stages
import GuardedQuery.Proofs.Storage
import GuardedQuery.Proofs.Trail
import GuardedQuery.Proofs.TwoRuns
import GuardedQuery.Proofs.TypedOrder
import GuardedQuery.Proofs.UnselectedFields
import GuardedQuery.Proofs.UnwoundRows
import GuardedQuery.Proofs.Uuid
import GuardedQuery.Proofs.Walk
import GuardedQuery.Proofs.WrittenQueries
import GuardedQuery.Query.Builder
import GuardedQuery.Query.Document
import GuardedQuery.Query.Error
import GuardedQuery.Query.Model
import GuardedQuery.Query.Script
import GuardedQuery.Query.Vocabulary
import GuardedQuery.Scalar
import GuardedQuery.Schema.Accessor
import GuardedQuery.Schema.Entity
import GuardedQuery.Schema.FieldType
import GuardedQuery.Step
import GuardedQuery.Storage.Basic
import GuardedQuery.Storage.Call
import GuardedQuery.Storage.DataFile
import GuardedQuery.Storage.Error
import GuardedQuery.Storage.Store
import GuardedQuery.Text.Blank
import GuardedQuery.Text.CaseTable
import GuardedQuery.Text.LowerCase
import GuardedQuery.Uuid
import GuardedQuery.Validation.Error
import GuardedQuery.Validation.Validator
