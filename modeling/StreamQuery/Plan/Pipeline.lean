import StreamQuery.Plan.Projection
import StreamQuery.Plan.Source
import StreamQuery.Window.Grouping
namespace StreamQuery

/-! The stages of a statement: sources, filter, groups, projection with its condition, distinct rows,
order and limit. -/

structure Pipeline where
  source : SourcePlan
  filter : Option Predicate
  grouping : Option Grouping
  projection : Projection
  having : Option Predicate
  orderKeys : List Mapper
  /-- For each order key whether it sorts downward. -/
  descending : List Bool
  distinct : Bool
  limit : Option Limit

namespace Stream

def process (policy : ErrorPolicy) (step : α → Evaluation (Option β)) (stream : Stream α) :
    Stream β := fun now =>
  Feed.process policy step (stream now) now

end Stream

namespace Pipeline

def holds (condition : Option Predicate) (context : Context) : Evaluation Bool :=
  match condition with
  | none => .ok true
  | some predicate => predicate context context.row

def view (pipeline : Pipeline) (context : Context) (projected : Value) : Context :=
  if pipeline.having.isSome || !pipeline.orderKeys.isEmpty then
    context.withRow (context.row.overlay projected)
  else context

def shape (pipeline : Pipeline) (context : Context) : Evaluation (Option Shaped) :=
  (pipeline.projection.apply context).andThen fun row =>
    let view := pipeline.view context row
    (holds pipeline.having view).andThen fun kept =>
      if kept then (Mapper.all pipeline.orderKeys view).map fun keys => some ⟨row, keys⟩
      else .ok none

def filtered (pipeline : Pipeline) (context : Context) (records : Stream Value) : Stream Value :=
  match pipeline.filter with
  | none => records
  | some predicate =>
      records.process context.settings.errorPolicy fun row =>
        (predicate context row).map fun kept => if kept then some row else none

def shaped (pipeline : Pipeline) (context : Context) (records : Stream Value) : Stream Shaped :=
  let policy := context.settings.errorPolicy
  match pipeline.grouping with
  | none => records.process policy fun row => pipeline.shape (context.withRow row)
  | some grouping =>
      Stream.process policy
        (fun group => pipeline.shape (context.withGroup group.sample group.aggregates))
        (Stream.group grouping context records)

def distinctRows (pipeline : Pipeline) (rows : Stream Shaped) : Stream Shaped :=
  if pipeline.distinct then fun now => Feed.distinct [] (rows now) now else rows

def sorted (pipeline : Pipeline) (rows : Stream Shaped) : Stream Shaped :=
  if pipeline.descending.isEmpty then rows
  else fun now => Feed.sort pipeline.descending (rows now) now

def limited (pipeline : Pipeline) (rows : Stream Shaped) : Stream Value :=
  let values : Stream Value := fun now => (rows now).map Shaped.row
  match pipeline.limit with
  | none => values
  | some limit => limit.apply values

def stages (pipeline : Pipeline) (context : Context) (records : Stream Value) : Stream Value :=
  pipeline.limited <| pipeline.sorted <| pipeline.distinctRows <|
    pipeline.shaped context (pipeline.filtered context records)

def rows (pipeline : Pipeline) (nested : Bool) (context : Context) : Opening (Stream Value) :=
  (pipeline.source.rows nested context).map
    (pipeline.stages (pipeline.source.context context))

end Pipeline

end StreamQuery
