import StreamQuery.Number.Digits
import StreamQuery.Number.Powers
import StreamQuery.Text.Blank
import StreamQuery.Time.Calendar
namespace StreamQuery

/-! Timestamps as text. They are written in one form, `2020-01-01T00:00:00.000Z`, and read from
that form with any offset, from a few forms without an offset that count as universal time, and
from a plain number of milliseconds. -/

namespace Timestamp

def yearText (year : Int) : List Char :=
  if 0 ≤ year ∧ year ≤ 9999 then Digits.padded 4 year.toNat
  else (if year < 0 then '-' else '+') :: Digits.padded 4 year.natAbs

def dateText (date : Date) : List Char :=
  yearText date.year ++ '-' :: Digits.padded 2 date.month ++ '-' :: Digits.padded 2 date.day

def momentText (moment : Moment) : List Char :=
  dateText moment.date ++ 'T' :: Digits.padded 2 moment.hour ++ ':' :: Digits.padded 2 moment.minute
    ++ ':' :: Digits.padded 2 moment.second ++ '.' :: Digits.padded 3 moment.millisecond ++ ['Z']

/-- An instant outside the calendar is written as its number. -/
def format (millis : Int) : String :=
  String.ofList <|
    if Moment.hasDate millis then momentText (.ofMillis millis) else Digits.ofInt millis

/-! What the readers collect. A second of sixty is allowed and counts as the second after. -/

structure Fields where
  year : Int
  month : Nat
  day : Nat
  hour : Nat
  minute : Nat
  second : Nat
  nanosecond : Nat
deriving DecidableEq, Repr

namespace Fields

def blank : Fields := ⟨0, 1, 1, 0, 0, 0, 0⟩

def toMillis? (fields : Fields) : Option Int :=
  let date : Date := ⟨fields.year, fields.month, fields.day⟩
  if date.isValid && fields.hour < 24 && fields.minute < 60 && fields.second ≤ 60 then
    some (Moment.toMillis
      ⟨date, fields.hour, fields.minute, fields.second, fields.nanosecond / 1000000⟩)
  else none

end Fields

def digitRun? (least most : Nat) (characters : List Char) : Option (Nat × List Char) :=
  let digits := (characters.take most).takeWhile Digits.isDigit
  if digits.length < least then none
  else some (Digits.toNat digits 0, characters.drop digits.length)

def expect? (wanted : Char) : List Char → Option (List Char)
  | [] => none
  | character :: rest => if character == wanted then some rest else none

def fraction? : List Char → Option (Nat × List Char)
  | '.' :: rest =>
      let digits := rest.takeWhile Digits.isDigit
      let counted := digits.take 9
      if digits.isEmpty then none
      else some (Digits.toNat counted 0 * powTen (9 - counted.length), rest.drop digits.length)
  | characters => some (0, characters)

/-! The form with an offset has fixed widths. -/

def offset? : List Char → Option (Int × List Char)
  | [] => none
  | sign :: rest =>
      if sign == 'Z' || sign == 'z' then some (0, rest)
      else if sign != '+' && sign != '-' && sign != '\u2212' then none
      else do
        let (hours, rest) ← digitRun? 2 2 rest
        let rest ← expect? ':' rest
        let (minutes, rest) ← digitRun? 2 2 rest
        if 24 ≤ hours ∨ 60 ≤ minutes then none
        else
          let seconds : Int := (hours * 60 + minutes) * 60
          some (if sign == '+' then seconds else -seconds, rest)

def expectSeparator? : List Char → Option (List Char)
  | [] => none
  | character :: rest =>
      if character == 'T' || character == 't' || character == ' ' then some rest else none

def withOffset? (characters : List Char) : Option Int := do
  let (year, rest) ← digitRun? 4 4 characters
  let rest ← expect? '-' rest
  let (month, rest) ← digitRun? 2 2 rest
  let rest ← expect? '-' rest
  let (day, rest) ← digitRun? 2 2 rest
  let rest ← expectSeparator? rest
  let (hour, rest) ← digitRun? 2 2 rest
  let rest ← expect? ':' rest
  let (minute, rest) ← digitRun? 2 2 rest
  let rest ← expect? ':' rest
  let (second, rest) ← digitRun? 2 2 rest
  let (nanosecond, rest) ← fraction? rest
  let (offset, rest) ← offset? rest
  let millis ← Fields.toMillis? ⟨year, month, day, hour, minute, second, nanosecond⟩
  if rest.isEmpty then some (millis - offset * 1000) else none

/-! The forms without an offset are lists of parts. A number may follow blanks and may have fewer
digits than its width; a blank stands for any blanks, also for none. -/

inductive Part where
  | year
  | month
  | day
  | hour
  | minute
  | second
  | fraction
  | blanks
  | exactly (character : Char)
deriving DecidableEq, Repr

def year? (characters : List Char) : Option (Int × List Char) :=
  match characters with
  | '-' :: rest => (digitRun? 1 rest.length rest).map fun (year, rest) => (-year, rest)
  | '+' :: rest => (digitRun? 1 rest.length rest).map fun (year, rest) => (year, rest)
  | _ => (digitRun? 1 4 characters).map fun (year, rest) => (year, rest)

def twoDigits? (characters : List Char) : Option (Nat × List Char) :=
  digitRun? 1 2 (Text.dropBlanks characters)

def Part.read? (part : Part) (fields : Fields) (characters : List Char) :
    Option (Fields × List Char) :=
  match part with
  | .year => (year? (Text.dropBlanks characters)).map fun (value, rest) =>
      ({ fields with year := value }, rest)
  | .month => (twoDigits? characters).map fun (value, rest) =>
      ({ fields with month := value }, rest)
  | .day => (twoDigits? characters).map fun (value, rest) => ({ fields with day := value }, rest)
  | .hour => (twoDigits? characters).map fun (value, rest) => ({ fields with hour := value }, rest)
  | .minute => (twoDigits? characters).map fun (value, rest) =>
      ({ fields with minute := value }, rest)
  | .second => (twoDigits? characters).map fun (value, rest) =>
      ({ fields with second := value }, rest)
  | .fraction => (fraction? characters).map fun (value, rest) =>
      ({ fields with nanosecond := value }, rest)
  | .blanks => some (fields, Text.dropBlanks characters)
  | .exactly wanted => (expect? wanted characters).map fun rest => (fields, rest)

def readParts? : List Part → Fields → List Char → Option Fields
  | [], fields, characters => if characters.isEmpty then some fields else none
  | part :: parts, fields, characters =>
      (part.read? fields characters).bind fun (fields, rest) => readParts? parts fields rest

def dateParts (separator : Char) : List Part :=
  [.year, .exactly separator, .month, .exactly separator, .day]

def timeParts : List Part :=
  [.hour, .exactly ':', .minute, .exactly ':', .second]

/-- The forms without an offset, in the order in which they are tried. -/
def plainForms : List (List Part) :=
  [dateParts '-' ++ .blanks :: timeParts ++ [.fraction],
   dateParts '-' ++ .exactly 'T' :: timeParts ++ [.fraction],
   dateParts '-' ++ [.blanks, .hour, .exactly ':', .minute],
   dateParts '/' ++ .blanks :: timeParts,
   dateParts '-']

def plain? (characters : List Char) : Option Int :=
  plainForms.findSome? fun parts =>
    (readParts? parts .blank characters).bind Fields.toMillis?

/-- Milliseconds of the instant that the text, without blanks around it, denotes. -/
def ofString? (text : String) : Option Int64 :=
  let characters := Text.trimCharacters text.toList
  match Digits.int64? characters with
  | some millis => some millis
  | none => ((withOffset? characters).or (plain? characters)).bind toInt64?

end Timestamp

end StreamQuery
