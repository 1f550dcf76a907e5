import StreamQuery.Proofs.Number.Digits
import StreamQuery.Proofs.Time.Calendar
import StreamQuery.Time.Timestamp
namespace StreamQuery

/-! Instants that have been written are read back: those with a date from the form that they are
written in, which is no number, and the others from their number. -/

namespace Digits

variable {width value : Nat}

theorem takeWhile_padded (width value : Nat) {rest : List Char}
    (ends : rest.takeWhile isDigit = []) :
    (padded width value ++ rest).takeWhile isDigit = padded width value := by
  rw [List.takeWhile_append_of_pos fun _ => isDigit_of_mem_padded, ends, List.append_nil]

variable (positive : 0 < width) (small : value < 10 ^ width)
include positive small

theorem take_padded (rest : List Char) :
    (padded width value ++ rest).take width = padded width value :=
  List.take_left' (length_padded positive small)

theorem drop_padded (rest : List Char) : (padded width value ++ rest).drop width = rest :=
  List.drop_left' (length_padded positive small)

end Digits

namespace Timestamp

open Digits

theorem bind_some_eq {outcome : Option α} {value : α} {next : α → Option β}
    (given : outcome = some value) : outcome >>= next = next value := by
  rw [given]
  rfl

theorem digitRun?_padded {width value : Nat} (positive : 0 < width) (small : value < 10 ^ width)
    (rest : List Char) :
    digitRun? width width (padded width value ++ rest) = some (value, rest) := by
  have digits : (padded width value).takeWhile isDigit = padded width value := by
    have alone := takeWhile_padded width value List.takeWhile_nil
    rwa [List.append_nil] at alone
  simp only [digitRun?, take_padded positive small, digits, length_padded positive small,
    Nat.lt_irrefl, if_false, toNat_padded, drop_padded positive small]

theorem expect?_self (character : Char) (rest : List Char) :
    expect? character (character :: rest) = some rest := by
  simp [expect?]

theorem expectSeparator?_T (rest : List Char) : expectSeparator? ('T' :: rest) = some rest := rfl

theorem offset?_Z : offset? ['Z'] = some (0, []) := rfl

theorem fraction?_point {rest : List Char} (digits : rest.takeWhile isDigit ≠ []) :
    fraction? ('.' :: rest) =
      some (toNat ((rest.takeWhile isDigit).take 9) 0 *
        powTen (9 - ((rest.takeWhile isDigit).take 9).length),
        rest.drop (rest.takeWhile isDigit).length) := by
  simp [fraction?, digits]

theorem fraction?_padded {millisecond : Nat} (small : millisecond < 1000) :
    fraction? ('.' :: (padded 3 millisecond ++ ['Z'])) = some (millisecond * 1000000, ['Z']) := by
  have length : (padded 3 millisecond).length = 3 := length_padded (by decide) small
  have digits : (padded 3 millisecond ++ ['Z']).takeWhile isDigit = padded 3 millisecond :=
    takeWhile_padded 3 millisecond rfl
  have present : padded 3 millisecond ≠ [] := fun none => by simp [none] at length
  have counted : (padded 3 millisecond).take 9 = padded 3 millisecond :=
    List.take_of_length_le (by omega)
  have left : (padded 3 millisecond ++ ['Z']).drop 3 = ['Z'] := drop_padded (by decide) small _
  rw [fraction?_point (by rwa [digits]), digits, counted, length, toNat_padded, left]
  rfl

theorem momentText_eq {moment : Moment} (first : 0 ≤ moment.date.year)
    (last : moment.date.year ≤ 9999) :
    momentText moment = padded 4 moment.date.year.toNat ++ '-' :: (padded 2 moment.date.month ++
      '-' :: (padded 2 moment.date.day ++ 'T' :: (padded 2 moment.hour ++
        ':' :: (padded 2 moment.minute ++ ':' :: (padded 2 moment.second ++
          '.' :: (padded 3 moment.millisecond ++ ['Z'])))))) := by
  have year : yearText moment.date.year = padded 4 moment.date.year.toNat := if_pos ⟨first, last⟩
  simp only [momentText, dateText, year, List.append_assoc, List.cons_append]

theorem isBlank_of_mem_momentText {moment : Moment} (first : 0 ≤ moment.date.year)
    (last : moment.date.year ≤ 9999) :
    ∀ character ∈ momentText moment, Text.isBlank character = false := by
  have digits (width value : Nat) : ∀ character ∈ padded width value,
      Text.isBlank character = false :=
    fun _ member => Text.isBlank_of_isDigit (isDigit_of_mem_padded member)
  have signs : Text.isBlank '-' = false ∧ Text.isBlank 'T' = false ∧ Text.isBlank ':' = false ∧
      Text.isBlank '.' = false ∧ Text.isBlank 'Z' = false := ⟨rfl, rfl, rfl, rfl, rfl⟩
  rw [momentText_eq first last]
  simp only [List.forall_mem_append, List.forall_mem_cons, signs, true_and]
  exact ⟨digits _ _, digits _ _, digits _ _, digits _ _, digits _ _, digits _ _, digits _ _,
    List.forall_mem_nil _⟩

theorem int64?_padded_dash (width value : Nat) (rest : List Char) :
    int64? (padded width value ++ '-' :: rest) = none := by
  obtain ⟨digit, digits, padded⟩ := List.exists_cons_of_ne_nil (padded_ne_nil width value)
  have dash : '-' ∈ digits ++ '-' :: rest :=
    List.mem_append_right digits List.mem_cons_self
  rw [padded, int64?, List.cons_append, int?_eq_none dash rfl, Option.bind_none]

theorem toMillis?_ofMillis {millis : Int} (first : 0 ≤ (Moment.ofMillis millis).date.year)
    (last : (Moment.ofMillis millis).date.year ≤ 9999) :
    let moment := Moment.ofMillis millis
    Fields.toMillis? ⟨moment.date.year, moment.date.month, moment.date.day, moment.hour,
      moment.minute, moment.second, moment.millisecond * 1000000⟩ = some millis := by
  intro moment
  obtain ⟨hours, minutes, seconds, _⟩ := Moment.ofMillis_within millis
  have valid : moment.date.isValid :=
    Date.isValid_ofDays (Int.le_trans (by decide) first) (Int.le_trans last (by decide))
  have whole : moment.millisecond * 1000000 / 1000000 = moment.millisecond :=
    Nat.mul_div_cancel _ (by decide)
  have back : moment.toMillis = millis := Moment.toMillis_ofMillis millis
  have within : (moment.date.isValid && decide (moment.hour < 24) && decide (moment.minute < 60) &&
      decide (moment.second ≤ 60)) = true := by
    simp [valid, hours, minutes, Nat.le_of_lt seconds, moment]
  simp only [Fields.toMillis?, whole]
  rw [if_pos within]
  exact congrArg some back

section

variable {millis : Int} (first : 0 ≤ (Moment.ofMillis millis).date.year)
  (last : (Moment.ofMillis millis).date.year ≤ 9999)
include first last

theorem withOffset?_momentText : withOffset? (momentText (.ofMillis millis)) = some millis := by
  have read := toMillis?_ofMillis first last
  obtain ⟨hours, minutes, seconds, milliseconds⟩ := Moment.ofMillis_within millis
  obtain ⟨_, months, _, days⟩ := Date.ofDays_within (millis / Moment.millisPerDay)
  have month : (Moment.ofMillis millis).date.month < 10 ^ 2 := Nat.lt_of_le_of_lt months (by decide)
  have day : (Moment.ofMillis millis).date.day < 10 ^ 2 :=
    Nat.lt_of_le_of_lt (Nat.le_trans days (Date.daysInMonth_le _ _)) (by decide)
  generalize Moment.ofMillis millis = moment at *
  have hour : moment.hour < 10 ^ 2 := by omega
  have minute : moment.minute < 10 ^ 2 := by omega
  have second : moment.second < 10 ^ 2 := by omega
  have year : moment.date.year.toNat < 10 ^ 4 := by omega
  have same : (moment.date.year.toNat : Int) = moment.date.year := Int.toNat_of_nonneg first
  have twoDigits {value : Nat} (small : value < 10 ^ 2) (rest : List Char) :=
    digitRun?_padded (by decide : 0 < 2) small rest
  rw [momentText_eq first last]
  refine (bind_some_eq (digitRun?_padded (by decide) year _)).trans ?_
  refine (bind_some_eq (expect?_self '-' _)).trans ?_
  refine (bind_some_eq (twoDigits month _)).trans ?_
  refine (bind_some_eq (expect?_self '-' _)).trans ?_
  refine (bind_some_eq (twoDigits day _)).trans ?_
  refine (bind_some_eq (expectSeparator?_T _)).trans ?_
  refine (bind_some_eq (twoDigits hour _)).trans ?_
  refine (bind_some_eq (expect?_self ':' _)).trans ?_
  refine (bind_some_eq (twoDigits minute _)).trans ?_
  refine (bind_some_eq (expect?_self ':' _)).trans ?_
  refine (bind_some_eq (twoDigits second _)).trans ?_
  refine (bind_some_eq (fraction?_padded milliseconds)).trans ?_
  refine (bind_some_eq offset?_Z).trans ?_
  rw [same]
  refine (bind_some_eq read).trans ?_
  change some (millis - 0 * 1000) = some millis
  rw [Int.zero_mul, Int.sub_zero]

theorem ofString?_momentText {whole : Int64} (same : whole.toInt = millis) :
    ofString? (String.ofList (momentText (.ofMillis millis))) = some whole := by
  have solid : Text.trimCharacters (momentText (.ofMillis millis)) =
      momentText (.ofMillis millis) :=
    Text.trimCharacters_of_not_isBlank (isBlank_of_mem_momentText first last)
  have noNumber : int64? (momentText (.ofMillis millis)) = none := by
    rw [momentText_eq first last]
    exact int64?_padded_dash _ _ _
  have read := withOffset?_momentText first last
  simp only [ofString?, String.toList_ofList, solid, noNumber, read, Option.some_or,
    Option.bind_some]
  rw [← same]
  exact Number.toInt64?_toInt whole

end

theorem ofString?_ofInt (whole : Int64) :
    ofString? (String.ofList (Digits.ofInt whole.toInt)) = some whole := by
  simp only [ofString?, String.toList_ofList, Text.trimCharacters_ofInt, int64?_ofInt]

/-- An instant is what its text denotes, unless the text has a year of more than four digits. -/
theorem ofString?_format {whole : Int64}
    (years : 0 ≤ (Moment.ofMillis whole.toInt).date.year ∧
      (Moment.ofMillis whole.toInt).date.year ≤ 9999) :
    ofString? (format whole.toInt) = some whole := by
  unfold format
  cases Moment.hasDate whole.toInt with
  | true => exact ofString?_momentText years.1 years.2 rfl
  | false => exact ofString?_ofInt whole

end Timestamp

end StreamQuery
