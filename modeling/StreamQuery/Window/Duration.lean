import StreamQuery.Error
import StreamQuery.Number.Digits
import StreamQuery.Text.Blank
namespace StreamQuery

/-! A duration is written as digits and a unit, and counted in milliseconds of 64 bits. -/

namespace Duration

/-- The milliseconds in a unit. A capital S stands for milliseconds, as no unit does. -/
def unitMillis? : String → Option Nat
  | "" | "ms" | "S" => some 1
  | "s" => some 1000
  | "m" => some 60000
  | "h" | "H" => some 3600000
  | "d" => some 86400000
  | _ => none

def ofTrimmed? (text : List Char) : Option Nat := do
  let amount ← Digits.nat? (text.takeWhile Digits.isDigit)
  let unit ← unitMillis? (Text.trim (String.ofList (text.dropWhile Digits.isDigit)))
  if amount < UInt64.size ∧ amount * unit < UInt64.size then some (amount * unit) else none

def ofString (text : String) : Except QueryError Nat :=
  match ofTrimmed? (Text.trimCharacters text.toList) with
  | some millis => .ok millis
  | none => .error (.cast (Text.trim text) "duration")

end Duration

end StreamQuery
