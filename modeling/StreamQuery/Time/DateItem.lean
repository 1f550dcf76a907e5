import StreamQuery.Time.Timestamp
import StreamQuery.Time.Zone
namespace StreamQuery

/-! What dates are written with: fields, each in its own style, and characters that stand for
themselves. -/

inductive DateField where
  | shortYear
  | year
  | month
  | monthPadded
  | monthShortName
  | monthName
  | day
  | dayPadded
  | hour
  | hourPadded
  | halfDayHour
  | halfDayHourPadded
  | minute
  | minutePadded
  | second
  | secondPadded
  | milliseconds
  | weekdayShortName
  | weekdayName
  | halfDay
  | offset
  | offsetWithColon
  | zoneName
deriving DecidableEq, Repr

inductive DateItem where
  | field (field : DateField)
  | literal (character : Char)
deriving DecidableEq, Repr

namespace DateField

def monthNames : List String :=
  ["January", "February", "March", "April", "May", "June", "July", "August", "September",
   "October", "November", "December"]

def weekdayNames : List String :=
  ["Sunday", "Monday", "Tuesday", "Wednesday", "Thursday", "Friday", "Saturday"]

def nameAt (names : List String) (position : Nat) : List Char :=
  ((names[position]?).getD "").toList

def offsetText (separator : List Char) (seconds : Int) : List Char :=
  let minutes := seconds.natAbs / 60
  (if seconds < 0 then '-' else '+') :: Digits.padded 2 (minutes / 60) ++ separator
    ++ Digits.padded 2 (minutes % 60)

def halfDayHourOf (hour : Nat) : Nat :=
  if hour % 12 = 0 then 12 else hour % 12

def text (field : DateField) (moment : Moment) (offset : Offset) : List Char :=
  match field with
  | .shortYear => Digits.padded 2 (moment.date.year % 100).toNat
  | .year => Timestamp.yearText moment.date.year
  | .month => Digits.ofNat moment.date.month
  | .monthPadded => Digits.padded 2 moment.date.month
  | .monthShortName => (nameAt monthNames (moment.date.month - 1)).take 3
  | .monthName => nameAt monthNames (moment.date.month - 1)
  | .day => Digits.ofNat moment.date.day
  | .dayPadded => Digits.padded 2 moment.date.day
  | .hour => Digits.ofNat moment.hour
  | .hourPadded => Digits.padded 2 moment.hour
  | .halfDayHour => Digits.ofNat (halfDayHourOf moment.hour)
  | .halfDayHourPadded => Digits.padded 2 (halfDayHourOf moment.hour)
  | .minute => Digits.ofNat moment.minute
  | .minutePadded => Digits.padded 2 moment.minute
  | .second => Digits.ofNat moment.second
  | .secondPadded => Digits.padded 2 moment.second
  | .milliseconds => Digits.padded 3 moment.millisecond
  | .weekdayShortName => (nameAt weekdayNames (Date.weekday moment.date.toDays)).take 3
  | .weekdayName => nameAt weekdayNames (Date.weekday moment.date.toDays)
  | .halfDay => if moment.hour < 12 then ['A', 'M'] else ['P', 'M']
  | .offset => offsetText [] offset.seconds
  | .offsetWithColon => offsetText [':'] offset.seconds
  | .zoneName => offset.abbreviation.toList

end DateField

def DateItem.text (item : DateItem) (moment : Moment) (offset : Offset) : List Char :=
  match item with
  | .field wanted => wanted.text moment offset
  | .literal character => [character]

/-- An instant in local time, item by item. Nothing for an instant without a date. -/
def DateItem.write? (zone : Zone) (millis : Int) (items : List DateItem) : Option String :=
  if Moment.hasDate millis then
    let offset := zone.offsetAt (millis / 1000)
    let moment := Moment.ofMillis (millis + offset.seconds * 1000)
    some (String.ofList (items.flatMap fun item => item.text moment offset))
  else none

end StreamQuery
