import StreamQuery.Value.Text
namespace StreamQuery

/-! Records and lists out of values. -/

namespace Value

def entries : List Value → List (String × Value)
  | key :: value :: rest => (key.toString, value) :: entries rest
  | _ => []

def newRecord (operands : List Value) : Value :=
  .record (Record.ofList (entries operands))

/-- The fields of a record without their keys; a list as it is, and any other value alone. -/
def toItems : Value → Value
  | .null => .null
  | .record fields => .list (Record.values fields)
  | .list items => .list items
  | value => .list [value]

def coalesce (values : List Value) : Value :=
  (values.find? fun value => !value.isNull).getD .null

end Value

end StreamQuery
