import StreamQuery.Time.Timestamp
import StreamQuery.Value.Record
namespace StreamQuery

/-! Values as text. A text stands as it is, except that a text directly in a field of a record is
quoted. -/

def boolText (value : Bool) : String :=
  if value then "true" else "false"

def intText (value : Int) : String :=
  String.ofList (Digits.ofInt value)

namespace Value

mutual
def toString : Value → String
  | .null => "null"
  | .boolean value => boolText value
  | .int32 value => intText value.toInt
  | .int64 value => intText value.toInt
  | .single value => value.toString
  | .double value => value.toString
  | .decimal value => value.toString
  | .string text => text
  | .dateTime millis => Timestamp.format millis.toInt
  | .list items => "[" ++ String.intercalate ", " (itemTexts items) ++ "]"
  | .record fields => "\x7b" ++ String.intercalate ", " (fieldTexts fields) ++ "\x7d"

def itemTexts : List Value → List String
  | [] => []
  | item :: rest => item.toString :: itemTexts rest

def fieldTexts : List (String × Value) → List String
  | [] => []
  | (key, .string text) :: rest => (key ++ ": \"" ++ text ++ "\"") :: fieldTexts rest
  | (key, value) :: rest => (key ++ ": " ++ value.toString) :: fieldTexts rest
end

end Value

end StreamQuery
