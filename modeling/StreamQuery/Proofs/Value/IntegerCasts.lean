import StreamQuery.Proofs.Number.Truncation
import StreamQuery.Value.DataType
namespace StreamQuery.Value

/-! Casts to integers cut a number off toward zero, and fail where the integer that is left is out
of the range. -/

theorem castTo_eq_ok_iff {value result : Value} {target : DataType} :
    value.castTo target = .ok result ↔ value.castTo? target = some result := by
  rw [castTo]
  cases value.castTo? target <;> simp

theorem castTo_eq_error_iff {value : Value} {target : DataType} :
    value.castTo target = .error (value.castError target.name) ↔ value.castTo? target = none := by
  rw [castTo]
  cases value.castTo? target <;> simp

variable {value : Value} {x : Number}

theorem castTo?_int64 (number : value.castNumber? = some x) :
    value.castTo? .int64 = x.toInt64?.map .int64 := by
  cases value <;> first | (cases number; done) | simp only [castTo?, number, Option.bind_some]

theorem castTo?_int32 (number : value.castNumber? = some x) :
    value.castTo? .int32 = (x.cutOff?.bind StreamQuery.toInt32?).map .int32 := by
  rw [← x.toInt32?_of_toInt64?]
  cases value <;> first | (cases number; done) | simp only [castTo?, number, Option.bind_some]

/-- A number is cast to the integer that it is cut off to, and to no integer if that one is out of
the range or if the number is not finite. One number above the integers of 64 bits is cast to the
last of them. -/
theorem cast_integers_cut_off (number : value.castNumber? = some x) :
    (∀ whole : Int64, x.toInt64? = some whole ↔
      x.cutOff? = some whole.toInt ∨ (x = Number.aboveInt64 ∧ whole = Int64.maxValue)) ∧
    (∀ whole : Int64, value.castTo .int64 = .ok (.int64 whole) ↔ x.toInt64? = some whole) ∧
    (value.castTo .int64 = .error (value.castError "long") ↔ x ≠ Number.aboveInt64 ∧
      ∀ whole, x.cutOff? = some whole → ¬(-2 ^ 63 ≤ whole ∧ whole < 2 ^ 63)) ∧
    (∀ whole : Int32, value.castTo .int32 = .ok (.int32 whole) ↔ x.cutOff? = some whole.toInt) ∧
    (value.castTo .int32 = .error (value.castError "int") ↔
      ∀ whole, x.cutOff? = some whole → ¬(-2 ^ 31 ≤ whole ∧ whole < 2 ^ 31)) := by
  refine ⟨x.toInt64?_eq_some_iff_cutOff?, fun whole => ?_, castTo_eq_error_iff.trans ?_,
    fun whole => ?_, castTo_eq_error_iff.trans ?_⟩
  · simp [castTo_eq_ok_iff, castTo?_int64 number]
  · rw [castTo?_int64 number, Option.map_eq_none_iff]
    exact x.toInt64?_eq_none_iff_cutOff?
  · rw [castTo_eq_ok_iff, castTo?_int32 number, ← x.cutOff?_toInt32?_eq_some_iff]
    cases x.cutOff?.bind StreamQuery.toInt32? <;> simp
  · rw [castTo?_int32 number, Option.map_eq_none_iff]
    exact x.cutOff?_toInt32?_eq_none_iff

theorem cast_integers_cut_off_negative :
    (Value.decimal ⟨-25, 1⟩).castNumber? = some (.decimal ⟨-25, 1⟩) ∧
      (Value.decimal ⟨-25, 1⟩).castTo .int64 = .ok (.int64 (-2)) ∧
      (Value.decimal ⟨-25, 1⟩).castTo .int32 = .ok (.int32 (-2)) :=
  have number : (Value.decimal ⟨-25, 1⟩).castNumber? = some (.decimal ⟨-25, 1⟩) := rfl
  have cut : (Number.decimal ⟨-25, 1⟩).cutOff? = some (-2) :=
    congrArg some (Decimal.digitsAt_zero ⟨-25, 1⟩).symm
  have casts := cast_integers_cut_off number
  ⟨number, (casts.2.1 (-2)).mpr ((casts.1 (-2)).mpr (.inl cut)), (casts.2.2.2.1 (-2)).mpr cut⟩

/-- The double `2 ^ 63` is cast to the integer before it. -/
theorem cast_aboveInt64_succeeds :
    Number.aboveInt64.cutOff? = some (2 ^ 63) ∧
      (Value.double (Binary.ofInt 9223372036854775808)).castTo .int64 =
        .ok (.int64 Int64.maxValue) := by
  have number : (Value.double (Binary.ofInt 9223372036854775808)).castNumber? =
    some Number.aboveInt64 := rfl
  rw [castTo_eq_ok_iff, castTo?_int64 number, Number.toInt64?_aboveInt64]
  exact ⟨Number.cutOff?_aboveInt64, rfl⟩

end StreamQuery.Value
