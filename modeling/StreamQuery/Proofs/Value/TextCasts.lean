import StreamQuery.Proofs.Time.TimestampText
import StreamQuery.Proofs.Value.IntegerCasts
namespace StreamQuery.Value

/-! Casts to text and back. Truth values, integers and dates in years of four digits come back as
they were. -/

def castThroughText (value : Value) (target : DataType) : Except QueryError Value :=
  (value.castTo .string).bind fun text => text.castTo target

theorem castThroughText_eq_ok_iff {value result : Value} {target : DataType}
    (present : value.isNull = false) :
    value.castThroughText target = .ok result ↔
      (string value.toString).castTo? target = some result := by
  have text : value.castTo .string = .ok (string value.toString) := by
    cases value <;> first | rfl | cases present
  rw [castThroughText, text]
  exact castTo_eq_ok_iff

theorem castNumber?_intText (whole : Int64) :
    (string (intText whole.toInt)).castNumber? = some (.int whole) := by
  have characters : (Text.trim (intText whole.toInt)).toList = Digits.ofInt whole.toInt := by
    rw [Text.trim, String.toList_ofList, intText, String.toList_ofList, Text.trimCharacters_ofInt]
  change Number.ofString? (intText whole.toInt) = _
  unfold Number.ofString?
  simp only [characters, Digits.int64?_ofInt]

theorem castThroughText_boolean (holds : Bool) :
    (boolean holds).castThroughText .boolean = .ok (boolean holds) := by
  cases holds <;> rfl

theorem castThroughText_int64 (whole : Int64) :
    (int64 whole).castThroughText .int64 = .ok (int64 whole) := by
  rw [castThroughText_eq_ok_iff rfl, toString, castTo?_int64 (castNumber?_intText whole)]
  rfl

theorem castThroughText_int32 (whole : Int32) :
    (int32 whole).castThroughText .int32 = .ok (int32 whole) := by
  have number : (string (intText whole.toInt)).castNumber? = some (.int whole.toInt64) := by
    rw [← Int32.toInt_toInt64]
    exact castNumber?_intText whole.toInt64
  have narrow : toInt32? whole.toInt64.toInt = some whole :=
    Number.toInt32?_eq_some_iff.mpr (Int32.toInt_toInt64 whole)
  rw [castThroughText_eq_ok_iff rfl, toString, castTo?_int32 number]
  exact congrArg (Option.map int32) narrow

/-- Cast to text and back to their own type, truth values and integers come back, and so do dates
in the years from 0 to 9999. -/
theorem castThroughText_self :
    (∀ holds, (boolean holds).castThroughText .boolean = .ok (boolean holds)) ∧
    (∀ whole, (int32 whole).castThroughText .int32 = .ok (int32 whole)) ∧
    (∀ whole, (int64 whole).castThroughText .int64 = .ok (int64 whole)) ∧
    ∀ millis : Int64, 0 ≤ (Moment.ofMillis millis.toInt).date.year →
      (Moment.ofMillis millis.toInt).date.year ≤ 9999 →
      Timestamp.ofString? (Timestamp.format millis.toInt) = some millis ∧
        (dateTime millis).castThroughText .dateTime = .ok (dateTime millis) := by
  refine ⟨castThroughText_boolean, castThroughText_int32, castThroughText_int64, ?dates⟩
  case dates =>
    intro millis first last
    have read := Timestamp.ofString?_format ⟨first, last⟩
    refine ⟨read, ?_⟩
    rw [castThroughText_eq_ok_iff rfl, toString, castTo?, read]
    rfl

/-- The last instant of the leap day of the year zero, long before instants are counted from. -/
theorem castThroughText_self_leap_day :
    let millis : Int64 := -62162035200001
    0 ≤ (Moment.ofMillis millis.toInt).date.year ∧
      (Moment.ofMillis millis.toInt).date.year ≤ 9999 ∧
      Timestamp.format millis.toInt = "0000-02-29T23:59:59.999Z" ∧
      (dateTime millis).castThroughText .dateTime = .ok (dateTime millis) := by
  intro millis
  have first : 0 ≤ (Moment.ofMillis millis.toInt).date.year := by decide
  have last : (Moment.ofMillis millis.toInt).date.year ≤ 9999 := by decide
  exact ⟨first, last, by decide, (castThroughText_self.2.2.2 millis first last).2⟩

end StreamQuery.Value
