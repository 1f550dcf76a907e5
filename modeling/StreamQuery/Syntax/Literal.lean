import StreamQuery.Syntax.Text
import StreamQuery.Value.DataType
namespace StreamQuery

/-! The values that literals stand for. -/

namespace Literal

def instant (text : String) : Except QueryError Value :=
  match Timestamp.ofString? text with
  | some millis => .ok (.dateTime millis)
  | none => .error (.cast text "date")

def hexInteger? (characters : List Char) : Option Int64 :=
  let (negative, digits) := Digits.splitSign characters
  (Digits.hexNat? digits).bind fun value => toInt64? (if negative then -(value : Int) else value)

def hexInteger (digits : String) : Except QueryError Value :=
  let characters := dropMarks 'X' (dropMarks 'x' digits.toList)
  match hexInteger? characters with
  | some value => .ok (.int64 value)
  | none => .error (.cast (String.ofList characters) "long")

def toValue : Literal → Except QueryError Value
  | .string text => .ok (.string text)
  | .integer value => .ok (.int64 value)
  | .float value => .ok (.double value)
  | .date text | .timestamp text => instant text
  | .hex digits => hexInteger digits
  | .boolean value => .ok (.boolean value)
  | .null => .ok .null

end Literal

end StreamQuery
