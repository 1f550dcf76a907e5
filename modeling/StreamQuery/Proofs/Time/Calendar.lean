import Mathlib.Tactic.IntervalCases
import StreamQuery.Time.Calendar
namespace StreamQuery

/-! Days and instants have dates and moments of the calendar as other names: what a day is called
leads back to it, and every such name is well formed. -/

namespace Date

/-- A day of a cycle by the centuries, the spans of four years and the years before it, and the days
of its own year before it. The last years of a span and of the cycle end with a leap day. -/
structure CycleParts (day century span year rest : Int) : Prop where
  centuries : 0 ≤ century ∧ century < 4
  spans : 0 ≤ span ∧ span < 25
  years : 0 ≤ year ∧ year < 4
  days : 0 ≤ rest ∧ rest ≤ 365
  leap : rest = 365 → year = 3 ∧ (span < 24 ∨ century = 3)
  sum : day = 36524 * century + 1461 * span + 365 * year + rest

theorem exists_cycleParts {day : Int} (first : 0 ≤ day) (last : day < 146097) :
    ∃ century span year rest : Int, CycleParts day century span year rest := by
  let century := day / 36524 - day / 146096
  let inCentury := day - 36524 * century
  let span := inCentury / 1461
  let inSpan := inCentury - 1461 * span
  let year := inSpan / 365 - inSpan / 1460
  have centuries : 0 ≤ century ∧ century < 4 ∧ 0 ≤ inCentury ∧
      (inCentury < 36524 ∨ (inCentury = 36524 ∧ century = 3)) := by omega
  have spans : 0 ≤ span ∧ span < 25 ∧ 0 ≤ inSpan ∧ inSpan < 1461 := by omega
  have years : 0 ≤ year ∧ year < 4 ∧ 0 ≤ inSpan - 365 * year ∧
      (inSpan - 365 * year < 365 ∨ (inSpan = 1460 ∧ year = 3)) := by omega
  exact ⟨century, span, year, inSpan - 365 * year, ⟨by omega, by omega⟩, ⟨by omega, by omega⟩,
    ⟨by omega, by omega⟩, ⟨by omega, by omega⟩, by omega, by omega⟩

theorem CycleParts.yearOfCycle {day century span year rest : Int}
    (parts : CycleParts day century span year rest) :
    (day - day / 1460 + day / 36524 - day / 146096) / 365 = 100 * century + 4 * span + year := by
  obtain ⟨centuries, spans, years, days, leap, sum⟩ := parts
  have inCentury : 1461 * span + 365 * year + rest < 36524 ∨
      (1461 * span + 365 * year + rest = 36524 ∧ century = 3) := by omega
  have shift : day / 36524 - day / 146096 = century := by
    rcases inCentury with inside | ⟨edge, last⟩
    · have : day / 146096 = 0 := by omega
      have : day / 36524 = century := by omega
      omega
    · have whole : day = 146096 := by omega
      rw [whole, last]
      rfl
  have leaps : day / 1460 = 25 * century + span ∨
      (day / 1460 = 25 * century + span + 1 ∧ year = 3 ∧ 0 < rest) := by omega
  omega

def inYear (year rest : Int) : Date :=
  let month := (5 * rest + 2) / 153
  let day := rest - (153 * month + 2) / 5 + 1
  { year := if month < 10 then year else year + 1
    month := (if month < 10 then month + 3 else month - 9).toNat
    day := day.toNat }

theorem CycleParts.ofDays {day century span year rest : Int}
    (parts : CycleParts day century span year rest) (cycle : Int) :
    Date.ofDays (146097 * cycle + day - 719468) =
      inYear (400 * cycle + 100 * century + 4 * span + year) rest := by
  obtain ⟨centuries, spans, years, days, _, sum⟩ := id parts
  have counted : 146097 * cycle + day - 719468 + 719468 = 146097 * cycle + day := by omega
  have cycles : (146097 * cycle + day) / 146097 = cycle := by omega
  have inCycle : (146097 * cycle + day) % 146097 = day := by omega
  have quarters : (100 * century + 4 * span + year) / 4 = 25 * century + span := by omega
  have hundreds : (100 * century + 4 * span + year) / 100 = century := by omega
  have dayOfYear : day - (365 * (100 * century + 4 * span + year) + (25 * century + span) -
      century) = rest := by omega
  have order : 100 * century + 4 * span + year + cycle * 400 =
      400 * cycle + 100 * century + 4 * span + year := by omega
  simp only [Date.ofDays, inYear, counted, cycles, inCycle, parts.yearOfCycle, quarters, hundreds,
    dayOfYear, order]

/-- Months are counted from March on, in the year that begins with it. -/
theorem toDays_of_march {year month day : Int} (first : 0 ≤ month) (last : month < 12)
    (positive : 0 ≤ day) :
    toDays ⟨if month < 10 then year else year + 1,
      (if month < 10 then month + 3 else month - 9).toNat, day.toNat⟩ =
      year / 400 * 146097 + year % 400 * 365 + year % 400 / 4 - year % 400 / 100 +
        ((153 * month + 2) / 5 + day - 1) - 719468 := by
  have days : (day.toNat : Int) = day := Int.toNat_of_nonneg positive
  by_cases early : month < 10
  · have counted : ((month + 3).toNat : Int) = month + 3 := Int.toNat_of_nonneg (by omega)
    have late : ¬(month + 3).toNat ≤ 2 := by omega
    have shift : month + 3 - 3 = month := by omega
    simp only [toDays, if_pos early, if_neg late, counted, days, shift]
  · have counted : ((month - 9).toNat : Int) = month - 9 := Int.toNat_of_nonneg (by omega)
    have late : (month - 9).toNat ≤ 2 := by omega
    have shift : month - 9 + 9 = month := by omega
    have before : year + 1 - 1 = year := by omega
    simp only [toDays, if_neg early, if_pos late, counted, days, shift, before]

theorem toDays_inYear {year rest : Int} (first : 0 ≤ rest) (last : rest ≤ 365) :
    (inYear year rest).toDays = year / 400 * 146097 + year % 400 * 365 + year % 400 / 4 -
      year % 400 / 100 + rest - 719468 := by
  have march : 0 ≤ (5 * rest + 2) / 153 := by omega
  have february : (5 * rest + 2) / 153 < 12 := by omega
  have positive : 0 ≤ rest - (153 * ((5 * rest + 2) / 153) + 2) / 5 + 1 := by omega
  have dayOfYear : (153 * ((5 * rest + 2) / 153) + 2) / 5 +
      (rest - (153 * ((5 * rest + 2) / 153) + 2) / 5 + 1) - 1 = rest := by omega
  refine (toDays_of_march march february positive).trans ?_
  rw [dayOfYear]

theorem CycleParts.toDays_ofDays {day century span year rest : Int}
    (parts : CycleParts day century span year rest) (cycle : Int) :
    (Date.ofDays (146097 * cycle + day - 719468)).toDays = 146097 * cycle + day - 719468 := by
  rw [parts.ofDays, toDays_inYear parts.days.1 parts.days.2]
  obtain ⟨centuries, spans, years, days, leap, sum⟩ := parts
  have cycles : (400 * cycle + 100 * century + 4 * span + year) / 400 = cycle := by omega
  have inCycle : (400 * cycle + 100 * century + 4 * span + year) % 400 =
      100 * century + 4 * span + year := by omega
  have quarters : (100 * century + 4 * span + year) / 4 = 25 * century + span := by omega
  have hundreds : (100 * century + 4 * span + year) / 100 = century := by omega
  rw [cycles, inCycle, quarters, hundreds]
  omega

theorem exists_parts (days : Int) : ∃ cycle century span year rest : Int,
    CycleParts (days + 719468 - 146097 * cycle) century span year rest := by
  have first : 0 ≤ days + 719468 - 146097 * ((days + 719468) / 146097) := by omega
  have last : days + 719468 - 146097 * ((days + 719468) / 146097) < 146097 := by omega
  exact ⟨_, exists_cycleParts first last⟩

theorem toDays_ofDays (days : Int) : (ofDays days).toDays = days := by
  obtain ⟨cycle, century, span, year, rest, parts⟩ := exists_parts days
  have same : 146097 * cycle + (days + 719468 - 146097 * cycle) - 719468 = days := by omega
  rw [← same]
  exact parts.toDays_ofDays cycle

theorem CycleParts.isLeapYear {day century span year rest : Int}
    (parts : CycleParts day century span year rest) (whole : rest = 365) (cycle : Int) :
    Date.isLeapYear (400 * cycle + 100 * century + 4 * span + year + 1) := by
  obtain ⟨centuries, spans, _, _, leap, _⟩ := parts
  obtain ⟨rfl, last⟩ := leap whole
  have quarter : (400 * cycle + 100 * century + 4 * span + 3 + 1) % 4 = 0 := by omega
  have hundred : (400 * cycle + 100 * century + 4 * span + 3 + 1) % 100 ≠ 0 ∨
      (400 * cycle + 100 * century + 4 * span + 3 + 1) % 400 = 0 := by omega
  simpa [Date.isLeapYear, quarter] using hundred

theorem inYear_within {year rest : Int} (first : 0 ≤ rest) (last : rest ≤ 365)
    (leap : rest = 365 → isLeapYear (year + 1)) :
    let date := inYear year rest
    1 ≤ date.month ∧ date.month ≤ 12 ∧ 1 ≤ date.day ∧
      date.day ≤ daysInMonth date.year date.month := by
  have march : 0 ≤ (5 * rest + 2) / 153 := by omega
  have february : (5 * rest + 2) / 153 ≤ 11 := by omega
  simp only [inYear]
  obtain ⟨month, same⟩ : ∃ month, (5 * rest + 2) / 153 = month := ⟨_, rfl⟩
  rw [same] at march february ⊢
  have lower : 153 * month ≤ 5 * rest + 2 := by omega
  have upper : 5 * rest + 2 < 153 * (month + 1) := by omega
  clear same
  rcases Int.lt_or_eq_of_le february with earlier | rfl
  · interval_cases month <;> simp [daysInMonth] <;> omega
  · refine ⟨by decide, by decide, by omega, ?_⟩
    change (rest - 337 + 1).toNat ≤ if isLeapYear (year + 1) then 29 else 28
    split
    · omega
    · next common =>
        have shorter : rest ≠ 365 := fun whole => common (leap whole)
        omega

theorem ofDays_within (days : Int) :
    let date := ofDays days
    1 ≤ date.month ∧ date.month ≤ 12 ∧ 1 ≤ date.day ∧
      date.day ≤ daysInMonth date.year date.month := by
  obtain ⟨cycle, century, span, year, rest, parts⟩ := exists_parts days
  have same : 146097 * cycle + (days + 719468 - 146097 * cycle) - 719468 = days := by omega
  rw [← same, parts.ofDays]
  exact inYear_within parts.days.1 parts.days.2 fun whole => parts.isLeapYear whole cycle

theorem daysInMonth_le (year : Int) (month : Nat) : daysInMonth year month ≤ 31 := by
  unfold daysInMonth
  split
  · cases isLeapYear year <;> decide
  all_goals decide

theorem isValid_ofDays {days : Int} (first : leastYear ≤ (ofDays days).year)
    (last : (ofDays days).year ≤ greatestYear) : (ofDays days).isValid := by
  obtain ⟨march, december, positive, within⟩ := ofDays_within days
  simp [isValid, first, last, march, december, positive, within]

end Date

namespace Moment

theorem toMillis_ofMillis (millis : Int) : (ofMillis millis).toMillis = millis := by
  simp only [ofMillis, toMillis, Date.toDays_ofDays, millisPerDay]
  omega

theorem ofMillis_within (millis : Int) :
    let moment := ofMillis millis
    moment.hour < 24 ∧ moment.minute < 60 ∧ moment.second < 60 ∧ moment.millisecond < 1000 := by
  simp only [ofMillis, millisPerDay]
  omega

end Moment

end StreamQuery
