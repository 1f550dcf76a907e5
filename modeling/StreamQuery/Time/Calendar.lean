namespace StreamQuery

/-! The calendar: days are counted from 1970-01-01, years run without a gap through zero, and the
rule for leap years holds for all of them. -/

structure Date where
  year : Int
  month : Nat
  day : Nat
deriving DecidableEq, Repr

namespace Date

def isLeapYear (year : Int) : Bool :=
  year % 4 == 0 && (year % 100 != 0 || year % 400 == 0)

def daysInMonth (year : Int) (month : Nat) : Nat :=
  match month with
  | 2 => if isLeapYear year then 29 else 28
  | 4 | 6 | 9 | 11 => 30
  | _ => 31

def leastYear : Int := -262143

def greatestYear : Int := 262142

def isValid (date : Date) : Bool :=
  leastYear ≤ date.year && date.year ≤ greatestYear && 1 ≤ date.month && date.month ≤ 12
    && 1 ≤ date.day && date.day ≤ daysInMonth date.year date.month

/-! Counting starts in March, so that a leap day is the last one of its year: a cycle of four
hundred such years has `146097` days, and the days before a month follow one linear formula. -/

def toDays (date : Date) : Int :=
  let year := if date.month ≤ 2 then date.year - 1 else date.year
  let month : Int := if date.month ≤ 2 then date.month + 9 else date.month - 3
  let cycle := year / 400
  let yearOfCycle := year % 400
  let dayOfYear := (153 * month + 2) / 5 + date.day - 1
  cycle * 146097 + yearOfCycle * 365 + yearOfCycle / 4 - yearOfCycle / 100 + dayOfYear - 719468

def ofDays (days : Int) : Date :=
  let shifted := days + 719468
  let cycle := shifted / 146097
  let dayOfCycle := shifted % 146097
  let yearOfCycle :=
    (dayOfCycle - dayOfCycle / 1460 + dayOfCycle / 36524 - dayOfCycle / 146096) / 365
  let dayOfYear := dayOfCycle - (365 * yearOfCycle + yearOfCycle / 4 - yearOfCycle / 100)
  let month := (5 * dayOfYear + 2) / 153
  let day := dayOfYear - (153 * month + 2) / 5 + 1
  let year := yearOfCycle + cycle * 400
  { year := if month < 10 then year else year + 1
    month := (if month < 10 then month + 3 else month - 9).toNat
    day := day.toNat }

def weekday (days : Int) : Nat :=
  ((days + 4) % 7).toNat

end Date

/-! A moment is a date with a time of day, to the millisecond. -/

structure Moment where
  date : Date
  hour : Nat
  minute : Nat
  second : Nat
  millisecond : Nat
deriving DecidableEq, Repr

namespace Moment

def millisPerDay : Int := 86400000

def toMillis (moment : Moment) : Int :=
  moment.date.toDays * millisPerDay
    + ((moment.hour * 60 + moment.minute) * 60 + moment.second) * 1000 + moment.millisecond

def ofMillis (millis : Int) : Moment :=
  let ofDay := (millis % millisPerDay).toNat
  { date := .ofDays (millis / millisPerDay)
    hour := ofDay / 3600000
    minute := ofDay / 60000 % 60
    second := ofDay / 1000 % 60
    millisecond := ofDay % 1000 }

def leastMillis : Int := -8334601228800000

def greatestMillis : Int := 8210266876799999

def hasDate (millis : Int) : Bool :=
  leastMillis ≤ millis && millis ≤ greatestMillis

end Moment

end StreamQuery
