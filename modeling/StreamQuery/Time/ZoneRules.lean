import StreamQuery.Time.Zone
namespace StreamQuery

/-! Zones that are told by rules, and some that are well known. A zone has a standard offset,
perhaps another one before its clocks were last reset, and perhaps seasons of daylight saving. The
rules of the seasons reach back to 1955. -/

/-- A switch happens on the first Sunday from a day of a month on, or on the last one of a month,
at a second of the day in universal time. -/
inductive SwitchDay where
  | sundayFrom (month day : Nat)
  | lastSunday (month : Nat)
deriving DecidableEq, Repr

structure Season where
  firstYear : Int
  lastYear : Int
  start : SwitchDay
  startSecond : Int
  finish : SwitchDay
  finishSecond : Int
deriving DecidableEq, Repr

namespace SwitchDay

def sundayOnOrAfter (days : Int) : Int :=
  days + (7 - Date.weekday days) % 7

def toDays (year : Int) : SwitchDay → Int
  | .sundayFrom month day => sundayOnOrAfter (Date.toDays ⟨year, month, day⟩)
  | .lastSunday month =>
      sundayOnOrAfter (Date.toDays ⟨year, month, Date.daysInMonth year month - 6⟩)

end SwitchDay

def Season.contains (season : Season) (seconds : Int) : Bool :=
  let year := (Date.ofDays (seconds / 86400)).year
  season.firstYear ≤ year && year ≤ season.lastYear
    && season.start.toDays year * 86400 + season.startSecond ≤ seconds
    && seconds < season.finish.toDays year * 86400 + season.finishSecond

structure ZoneRules where
  standard : Offset
  daylight : Offset
  seasons : List Season
  /-- The offset before an instant, given in seconds. -/
  earlier : Option (Int × Offset)
deriving DecidableEq, Repr

namespace ZoneRules

def offsetAt (rules : ZoneRules) (seconds : Int) : Offset :=
  match rules.earlier with
  | some (bound, offset) => if seconds < bound then offset else rules.standard
  | none => if rules.seasons.any (·.contains seconds) then rules.daylight else rules.standard

def openYear : Int := Date.greatestYear

def newYork : ZoneRules where
  standard := ⟨-18000, "EST"⟩
  daylight := ⟨-14400, "EDT"⟩
  seasons :=
    [⟨1955, 1973, .lastSunday 4, 25200, .lastSunday 10, 21600⟩,
     ⟨1974, 1974, .sundayFrom 1 6, 25200, .lastSunday 10, 21600⟩,
     ⟨1975, 1975, .sundayFrom 2 23, 25200, .lastSunday 10, 21600⟩,
     ⟨1976, 1986, .lastSunday 4, 25200, .lastSunday 10, 21600⟩,
     ⟨1987, 2006, .sundayFrom 4 1, 25200, .lastSunday 10, 21600⟩,
     ⟨2007, openYear, .sundayFrom 3 8, 25200, .sundayFrom 11 1, 21600⟩]
  earlier := none

def paris : ZoneRules where
  standard := ⟨3600, "CET"⟩
  daylight := ⟨7200, "CEST"⟩
  seasons :=
    [⟨1976, 1976, .sundayFrom 3 28, 0, .lastSunday 9, -3600⟩,
     ⟨1977, 1977, .sundayFrom 4 1, 3600, .lastSunday 9, 3600⟩,
     ⟨1978, 1978, .sundayFrom 4 1, 3600, .sundayFrom 10 1, 3600⟩,
     ⟨1979, 1980, .sundayFrom 4 1, 3600, .lastSunday 9, 3600⟩,
     ⟨1981, 1995, .lastSunday 3, 3600, .lastSunday 9, 3600⟩,
     ⟨1996, openYear, .lastSunday 3, 3600, .lastSunday 10, 3600⟩]
  earlier := none

def shanghai : ZoneRules where
  standard := ⟨28800, "CST"⟩
  daylight := ⟨32400, "CDT"⟩
  seasons :=
    [⟨1986, 1986, .sundayFrom 5 4, -21600, .sundayFrom 9 11, -25200⟩,
     ⟨1987, 1991, .sundayFrom 4 11, -21600, .sundayFrom 9 11, -25200⟩]
  earlier := none

def kathmandu : ZoneRules where
  standard := ⟨20700, "+0545"⟩
  daylight := ⟨20700, "+0545"⟩
  seasons := []
  earlier := some (504901800, ⟨19800, "+0530"⟩)

end ZoneRules

namespace Zones

def named (name : String) : Option Zone :=
  match name with
  | "UTC" => some (.fixed 0 "UTC")
  | "GMT" => some (.fixed 0 "GMT")
  | "Asia/Shanghai" => some ⟨ZoneRules.shanghai.offsetAt⟩
  | "America/New_York" => some ⟨ZoneRules.newYork.offsetAt⟩
  | "Europe/Paris" => some ⟨ZoneRules.paris.offsetAt⟩
  | "Asia/Kolkata" => some (.fixed 19800 "IST")
  | "Asia/Kathmandu" => some ⟨ZoneRules.kathmandu.offsetAt⟩
  | "Etc/GMT+5" => some (.fixed (-18000) "-05")
  | _ => none

/-- A few zones, with universal time where none is chosen. Names are case sensitive. -/
def common : Zones :=
  ⟨.default, named⟩

end Zones

end StreamQuery
