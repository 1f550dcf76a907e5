import StreamQuery.Number.Basic
import StreamQuery.Text.Keyword
namespace StreamQuery

/-! The values of a record: scalars, lists, and records nested in records. -/

inductive Value where
  | null
  | boolean (value : Bool)
  | int32 (value : Int32)
  | int64 (value : Int64)
  | single (value : Single)
  | double (value : Double)
  | decimal (value : Decimal)
  | string (text : String)
  /-- Milliseconds since 1970 in universal time. -/
  | dateTime (millis : Int64)
  | list (items : List Value)
  /-- Fields in the order of their keys, each key once. -/
  | record (fields : List (String × Value))
deriving Inhabited

namespace Value

def isNull : Value → Bool
  | .null => true
  | _ => false

def isIntegral : Value → Bool
  | .int32 _ | .int64 _ => true
  | _ => false

def isNumeric : Value → Bool
  | .int32 _ | .int64 _ | .single _ | .double _ | .decimal _ => true
  | _ => false

def toInt64? : Value → Option Int64
  | .int32 value => some value.toInt64
  | .int64 value => some value
  | _ => none

def toRecord? : Value → Option (List (String × Value))
  | .record fields => some fields
  | _ => none

def ofNumber : Number → Value
  | .int value => .int64 value
  | .float value => .double value
  | .decimal value => .decimal value

def number? : Value → Option Number
  | .int32 value => some (.ofInt32 value)
  | .int64 value => some (.int value)
  | .single value => some (.float (value.convert _))
  | .double value => some (.float value)
  | .decimal value => some (.decimal value)
  | _ => none

/-- The number that a value can be computed with: texts that write one and timestamps count. -/
def asNumber? : Value → Option Number
  | .string text => Number.ofString? text
  | .dateTime millis => some (.int millis)
  | value => value.number?

def isTruthy : Value → Bool
  | .boolean value => value
  | .null => false
  | .string text => Text.equalsIgnoringCase text "true"
  | value => (value.asNumber?.map (!·.isZero)).getD false

end Value

/-! Numbers are brought to one representative each, at any depth, so that values that compare as
equal become one key. -/

namespace Value

def normalizedScalar (value : Value) : Value :=
  match value.number? with
  | some number => .ofNumber number.canonical
  | none => value

mutual
def normalized : Value → Value
  | .list items => .list (normalizedItems items)
  | .record fields => .record (normalizedFields fields)
  | value => value.normalizedScalar

def normalizedItems : List Value → List Value
  | [] => []
  | item :: rest => item.normalized :: normalizedItems rest

def normalizedFields : List (String × Value) → List (String × Value)
  | [] => []
  | (key, value) :: rest => (key, value.normalized) :: normalizedFields rest
end

end Value

end StreamQuery
