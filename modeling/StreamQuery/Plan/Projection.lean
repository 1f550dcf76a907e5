import StreamQuery.Plan.Context
namespace StreamQuery

/-! The select list. -/

inductive Column where
  /-- All fields of the row, if it is a record. -/
  | wildcard
  | named (name : String) (mapper : Mapper)

def Column.fields (context : Context) : Column → Evaluation Record
  | .wildcard => .ok (context.row.toRecord?.getD Record.empty)
  | .named name mapper => (mapper context).map fun value => [(name, value)]

structure Projection where
  /-- The row itself is the output. -/
  passesThrough : Bool
  columns : List Column

namespace Projection

def passes : List SelectItem → Bool
  | [] | [.wildcard] => true
  | [.expression value none] => value.isThis
  | _ => false

def apply (projection : Projection) (context : Context) : Evaluation Value :=
  if projection.passesThrough then .ok context.row
  else
    (Evaluation.all (projection.columns.map (Column.fields context))).map fun parts =>
      .record (parts.foldl Record.merge Record.empty)

end Projection

def Value.overlay : Value → Value → Value
  | .record base, .record projected => .record (Record.merge base projected)
  | _, projected => projected

end StreamQuery
