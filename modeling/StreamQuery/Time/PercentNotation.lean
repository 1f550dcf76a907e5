import StreamQuery.Time.DateItem
namespace StreamQuery

/-! Dates in percent notation. A percent sign and the letters of a conversion ask for a
field, two percent signs stand for one, and all other characters stand for themselves. -/

def DateField.conversion : DateField → List Char
  | .shortYear => ['y']
  | .year => ['Y']
  | .month => ['-', 'm']
  | .monthPadded => ['m']
  | .monthShortName => ['b']
  | .monthName => ['B']
  | .day => ['-', 'd']
  | .dayPadded => ['d']
  | .hour => ['-', 'H']
  | .hourPadded => ['H']
  | .halfDayHour => ['-', 'I']
  | .halfDayHourPadded => ['I']
  | .minute => ['-', 'M']
  | .minutePadded => ['M']
  | .second => ['-', 'S']
  | .secondPadded => ['S']
  | .milliseconds => ['3', 'f']
  | .weekdayShortName => ['a']
  | .weekdayName => ['A']
  | .halfDay => ['p']
  | .offset => ['z']
  | .offsetWithColon => [':', 'z']
  | .zoneName => ['Z']

def DateItem.specification : DateItem → List Char
  | .field wanted => '%' :: wanted.conversion
  | .literal character => if character = '%' then ['%', '%'] else [character]

namespace PercentNotation

def spell (items : List DateItem) : List Char :=
  items.flatMap DateItem.specification

/-! Reading goes from left to right. A percent sign with anything else behind it than a conversion
or another percent sign makes the text invalid. -/

def conversion? : List Char → Option (DateItem × List Char)
  | '%' :: rest => some (.literal '%', rest)
  | 'y' :: rest => some (.field .shortYear, rest)
  | 'Y' :: rest => some (.field .year, rest)
  | '-' :: 'm' :: rest => some (.field .month, rest)
  | 'm' :: rest => some (.field .monthPadded, rest)
  | 'b' :: rest => some (.field .monthShortName, rest)
  | 'B' :: rest => some (.field .monthName, rest)
  | '-' :: 'd' :: rest => some (.field .day, rest)
  | 'd' :: rest => some (.field .dayPadded, rest)
  | '-' :: 'H' :: rest => some (.field .hour, rest)
  | 'H' :: rest => some (.field .hourPadded, rest)
  | '-' :: 'I' :: rest => some (.field .halfDayHour, rest)
  | 'I' :: rest => some (.field .halfDayHourPadded, rest)
  | '-' :: 'M' :: rest => some (.field .minute, rest)
  | 'M' :: rest => some (.field .minutePadded, rest)
  | '-' :: 'S' :: rest => some (.field .second, rest)
  | 'S' :: rest => some (.field .secondPadded, rest)
  | '3' :: 'f' :: rest => some (.field .milliseconds, rest)
  | 'a' :: rest => some (.field .weekdayShortName, rest)
  | 'A' :: rest => some (.field .weekdayName, rest)
  | 'p' :: rest => some (.field .halfDay, rest)
  | 'z' :: rest => some (.field .offset, rest)
  | ':' :: 'z' :: rest => some (.field .offsetWithColon, rest)
  | 'Z' :: rest => some (.field .zoneName, rest)
  | _ => none

theorem length_of_conversion? {text rest : List Char} {item : DateItem}
    (found : conversion? text = some (item, rest)) : rest.length < text.length := by
  unfold conversion? at found
  split at found <;> cases found <;> simp only [List.length_cons] <;> omega

def read? : List Char → Option (List DateItem)
  | [] => some []
  | character :: rest =>
      if character = '%' then
        match _found : conversion? rest with
        | none => none
        | some (item, later) => (read? later).map (item :: ·)
      else (read? rest).map (.literal character :: ·)
termination_by text => text.length
decreasing_by
  · exact Nat.lt_succ_of_lt (length_of_conversion? _found)
  · exact Nat.lt_succ_self _

theorem read?_percent {rest later : List Char} {item : DateItem}
    (found : conversion? rest = some (item, later)) :
    read? ('%' :: rest) = (read? later).map (item :: ·) := by
  rw [read?, if_pos rfl]
  split
  · next none => cases found.symm.trans none
  · next other => cases found.symm.trans other; rfl

theorem read?_other {character : Char} (other : character ≠ '%') (rest : List Char) :
    read? (character :: rest) = (read? rest).map (.literal character :: ·) := by
  rw [read?, if_neg other]

/-- Writes what the text asks for. Nothing for an instant without a date, and none for an invalid
text. -/
def format? (zone : Zone) (millis : Int) (text : String) : Option String :=
  (read? text.toList).bind (DateItem.write? zone millis)

end PercentNotation

end StreamQuery
