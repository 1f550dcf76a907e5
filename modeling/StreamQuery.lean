import StreamQuery.Plan.Cache
import StreamQuery.Proofs.Aggregate.Batches
import StreamQuery.Proofs.Aggregate.GroupBy
import StreamQuery.Proofs.Aggregate.Refusals
import StreamQuery.Proofs.Cache.Calls
import StreamQuery.Proofs.Cache.Clients
import StreamQuery.Proofs.Function.Extremes
import StreamQuery.Proofs.Join.Chains
import StreamQuery.Proofs.Join.Mirror
import StreamQuery.Proofs.Number.IntegerArithmetic
import StreamQuery.Proofs.Plan.AggregateSlots
import StreamQuery.Proofs.Plan.DerivedForms
import StreamQuery.Proofs.Plan.DistinctStatements
import StreamQuery.Proofs.Plan.Endings
import StreamQuery.Proofs.Plan.FirstValues
import StreamQuery.Proofs.Plan.FlowErrors
import StreamQuery.Proofs.Plan.GroupConditions
import StreamQuery.Proofs.Plan.Isolation
import StreamQuery.Proofs.Plan.JoinConditions
import StreamQuery.Proofs.Plan.LimitedRows
import StreamQuery.Proofs.Plan.Negations
import StreamQuery.Proofs.Plan.OutputRows
import StreamQuery.Proofs.Plan.Policy
import StreamQuery.Proofs.Plan.Readings
import StreamQuery.Proofs.Plan.SharedKeys
import StreamQuery.Proofs.Plan.SortedRows
import StreamQuery.Proofs.Text.Patterns
import StreamQuery.Proofs.Time.PercentNotation
import StreamQuery.Proofs.Time.QuotedText
import StreamQuery.Proofs.Value.IntegerCasts
import StreamQuery.Proofs.Value.TextCasts
import StreamQuery.Proofs.Window.CountWindows
import StreamQuery.Proofs.Window.Covering
import StreamQuery.Proofs.Window.PredicateWindows
import StreamQuery.Proofs.Window.Rejection
import StreamQuery.Proofs.Window.TimeWindows
import StreamQuery.Settings.Document
import StreamQuery.Stream.Run
