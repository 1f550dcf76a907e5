import Mathlib.Data.List.Basic
import StreamQuery.Value.Basic
namespace StreamQuery.Value

/-! The operands of aggregates and of functions of many operands, where nulls are passed over and
everything else may have to count as a number. -/

variable {operands : List Value} {value : Value}

def present (operands : List Value) : List Value :=
  operands.filter (!·.isNull)

def asNumbers (operands : List Value) : List Number :=
  operands.filterMap asNumber?

theorem eq_null_of_isNull (null : value.isNull) : value = .null := by
  cases value <;> first | rfl | cases null

theorem null_or_present (member : value ∈ operands) : value = .null ∨ value ∈ present operands := by
  cases null : value.isNull with
  | true => exact .inl (eq_null_of_isNull null)
  | false => exact .inr (List.mem_filter.mpr ⟨member, by simp [null]⟩)

theorem isNull_of_mem_present (member : value ∈ present operands) : value.isNull = false := by
  simpa using (List.mem_filter.mp member).2

theorem present_eq_nil_iff : present operands = [] ↔ ∀ operand ∈ operands, operand.isNull := by
  simp [present]

theorem present_null (operands : List Value) : present (.null :: operands) = present operands := rfl

theorem present_cons (operands : List Value) (given : value.isNull = false) :
    present (value :: operands) = value :: present operands := by
  simp [present, given]

theorem mem_asNumbers {x : Number} (member : value ∈ present operands)
    (number : value.asNumber? = some x) : x ∈ asNumbers operands :=
  List.mem_filterMap.mpr ⟨value, (List.mem_filter.mp member).1, number⟩

theorem asNumbers_present (operands : List Value) :
    asNumbers (present operands) = asNumbers operands := by
  rw [asNumbers, present, List.filterMap_filter]
  refine List.filterMap_congr fun operand _ => ?_
  cases operand <;> rfl

theorem exists_of_mem_asNumbers {x : Number} (member : x ∈ asNumbers operands) :
    ∃ operand ∈ present operands, operand.asNumber? = some x := by
  rw [← asNumbers_present] at member
  exact List.mem_filterMap.mp member

theorem ofNumber_ne_null (x : Number) : ofNumber x ≠ .null := by
  cases x <;> nofun

end StreamQuery.Value
