import StreamQuery.Value.Text
import StreamQuery.Error
namespace StreamQuery

/-! The kinds of values, which are also the targets of casts. -/

inductive DataType where
  | boolean
  | int32
  | int64
  | single
  | double
  | decimal
  | string
  | dateTime
  | list
  | record
deriving DecidableEq, Repr

namespace DataType

def ofName? (name : String) : Option DataType :=
  match Text.asciiLower name with
  | "string" | "varchar" | "text" | "char" => some .string
  | "boolean" | "bool" => some .boolean
  | "int" | "integer" => some .int32
  | "long" | "bigint" => some .int64
  | "double" => some .double
  | "float" => some .single
  | "decimal" | "numeric" => some .decimal
  | "date" | "datetime" | "timestamp" => some .dateTime
  | _ => none

def isNumeric : DataType → Bool
  | .int32 | .int64 | .single | .double | .decimal => true
  | _ => false

def name : DataType → String
  | .boolean => "boolean"
  | .int32 => "int"
  | .int64 => "long"
  | .single => "float"
  | .double => "double"
  | .decimal => "decimal"
  | .string => "string"
  | .dateTime => "date"
  | .list => "list"
  | .record => "record"

end DataType

namespace Value

def dataType? : Value → Option DataType
  | .null => none
  | .boolean _ => some .boolean
  | .int32 _ => some .int32
  | .int64 _ => some .int64
  | .single _ => some .single
  | .double _ => some .double
  | .decimal _ => some .decimal
  | .string _ => some .string
  | .dateTime _ => some .dateTime
  | .list _ => some .list
  | .record _ => some .record

def boolOfText? (text : String) : Option Bool :=
  match Text.asciiLower (Text.trim text) with
  | "true" | "y" | "yes" | "1" => some true
  | "false" | "n" | "no" | "0" => some false
  | _ => none

def castNumber? : Value → Option Number
  | .boolean value => some (.ofBool value)
  | value => value.asNumber?

def castTo? (value : Value) (target : DataType) : Option Value :=
  match target, value with
  | _, .null => some .null
  | .string, value => some (.string value.toString)
  | .boolean, .boolean value => some (.boolean value)
  | .boolean, .string text => (boolOfText? text).map .boolean
  | .boolean, value => value.asNumber?.map fun number => .boolean (!number.isZero)
  | .int32, value =>
      ((value.castNumber?.bind Number.toInt64?).bind fun whole =>
        toInt32? whole.toInt).map .int32
  | .int64, value => (value.castNumber?.bind Number.toInt64?).map .int64
  | .single, value => value.castNumber?.map fun number => .single (number.toDouble.convert _)
  | .double, value => value.castNumber?.map fun number => .double number.toDouble
  | .decimal, .string text => (Decimal.ofString? (Text.trim text)).map .decimal
  | .decimal, value => (value.castNumber?.bind Number.toDecimal?).map .decimal
  | .dateTime, .dateTime millis => some (.dateTime millis)
  | .dateTime, .string text => (Timestamp.ofString? text).map .dateTime
  | .dateTime, value => (value.castNumber?.bind Number.toInt64?).map .dateTime
  | .list, .list items => some (.list items)
  | .list, value => some (.list [value])
  | .record, .record fields => some (.record fields)
  | .record, _ => none

def castError (value : Value) (target : String) : QueryError :=
  .cast value.toString target

def castTo (value : Value) (target : DataType) : Except QueryError Value :=
  match value.castTo? target with
  | some result => .ok result
  | none => .error (value.castError target.name)

end Value

end StreamQuery
