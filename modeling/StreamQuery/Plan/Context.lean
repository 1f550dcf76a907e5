import StreamQuery.Settings.Basic
import StreamQuery.Stream.Evaluation
import StreamQuery.Syntax.Expr
import StreamQuery.Value.Record
namespace StreamQuery

/-! A compiled expression is a function of the context in which it is evaluated. -/

/-- A clock on the wall: the time that it shows at every instant of a run, in milliseconds. -/
structure WallClock where
  reading : Nat → Int64

namespace WallClock

def still (reading : Int64) : WallClock :=
  ⟨fun _ => reading⟩

instance : Coe Int64 WallClock := ⟨still⟩

end WallClock

structure Context where
  /-- The current record. -/
  row : Value
  /-- The name that qualifies the columns of the current record. -/
  label : Option String
  /-- The finished aggregates of the current group. -/
  aggregates : List Value
  settings : Settings
  wallClock : WallClock

namespace Context

def withRow (context : Context) (row : Value) : Context :=
  { context with row }

def withLabel (context : Context) (label : Option String) : Context :=
  { context with label }

def withClock (context : Context) (wallClock : WallClock) : Context :=
  { context with wallClock }

def withGroup (context : Context) (sample : Value) (aggregates : List Value) : Context :=
  { context with row := sample, aggregates }

/-! Columns. A qualified name is looked up in the part of a joined record that has the name of the
qualifier, else in the record itself if it came from the source of that name, else as one key. A
column that is not there is null. -/

def findColumn? (context : Context) (column : ColumnRef) : Option Value :=
  match column.table with
  | none => if column.name == "this" then some context.row else context.row.getPath? column.name
  | some table =>
      if table == "this" then context.row.getPath? column.name
      else
        match context.row.field? table with
        | some (.record fields) => (Value.record fields).getPath? column.name
        | _ =>
            if context.label == some table then context.row.getPath? column.name
            else context.row.getPath? (table ++ "." ++ column.name)

def resolve (context : Context) (column : ColumnRef) : Value :=
  (context.findColumn? column).getD .null

end Context

/-! A mapper gives the value of an expression, a predicate says whether it holds of a record. A
predicate goes by the record that it is asked about, whatever the record of the context is. -/

abbrev Mapper := Context → Evaluation Value

abbrev Predicate := Context → Value → Evaluation Bool

namespace Mapper

def constant (value : Value) : Mapper := fun _ =>
  .ok value

def column (reference : ColumnRef) : Mapper := fun context =>
  .ok (context.resolve reference)

def toPredicate (mapper : Mapper) : Predicate := fun context row =>
  (mapper (context.withRow row)).map Value.isTruthy

def all (mappers : List Mapper) (context : Context) : Evaluation (List Value) :=
  Evaluation.all (mappers.map fun mapper => mapper context)

def apply (function : List Value → Except QueryError Value) (operands : List Mapper) : Mapper :=
  fun context => (all operands context).thenCheck function

def applyNow (function : Int64 → List Value → Except QueryError Value) (operands : List Mapper) :
    Mapper := fun context =>
  (all operands context).andThen fun values =>
    .reading fun now => function (context.wallClock.reading now) values

end Mapper

namespace Predicate

def constant (holds : Bool) : Predicate := fun _ _ =>
  .ok holds

def toMapper (predicate : Predicate) : Mapper := fun context =>
  (predicate context context.row).map .boolean

def negate (predicate : Predicate) : Predicate := fun context row =>
  (predicate context row).map (!·)

def and (left right : Predicate) : Predicate := fun context row =>
  let context := context.withRow row
  (left context row).andThen fun holds => if holds then right context row else .ok false

def or (left right : Predicate) : Predicate := fun context row =>
  let context := context.withRow row
  (left context row).andThen fun holds => if holds then .ok true else right context row

end Predicate

end StreamQuery
