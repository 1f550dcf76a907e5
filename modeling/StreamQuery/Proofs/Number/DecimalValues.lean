import Mathlib.Algebra.Order.Field.Power
import Mathlib.Data.Rat.Cast.Order
import Mathlib.Order.Compare
import Mathlib.Tactic.FieldSimp
import Mathlib.Tactic.Linarith
import Mathlib.Tactic.NormNum
import Mathlib.Tactic.Positivity
import Mathlib.Tactic.Ring
import StreamQuery.Number.Decimal
namespace StreamQuery

/-! The rational numbers that decimals stand for. Comparison goes by them. -/

theorem powTwo_cast (exponent : Nat) : (powTwo exponent : ℚ) = 2 ^ exponent := by
  simp [powTwo]

theorem powTen_cast (exponent : Nat) : (powTen exponent : ℚ) = 10 ^ exponent := by
  simp [powTen]

theorem zpow_eq_div (base : ℚ) (exponent : Int) :
    base ^ exponent = base ^ exponent.toNat / base ^ (-exponent).toNat := by
  rcases Int.le_total 0 exponent with positive | negative
  · obtain ⟨places, rfl⟩ := Int.eq_ofNat_of_zero_le positive
    simp
  · obtain ⟨places, same⟩ := Int.eq_ofNat_of_zero_le (Int.neg_nonneg_of_nonpos negative)
    obtain rfl : exponent = -places := by omega
    simp

namespace Decimal

def value (x : Decimal) : ℚ :=
  x.digits * 10 ^ (-x.scale)

theorem value_ofInt (whole : Int) : (ofInt whole).value = whole := by
  simp [value, ofInt]

theorem digitsAt_cast {x : Decimal} {scale : Int} (least : x.scale ≤ scale) :
    (x.digitsAt scale : ℚ) = x.value * 10 ^ scale := by
  have places : ((scale - x.scale).toNat : Int) = -x.scale + scale := by omega
  rw [digitsAt_eq, if_pos least, value, mul_assoc, ← zpow_add₀ (by norm_num), ← places]
  push_cast
  rw [powTen_cast, zpow_natCast]

theorem compareValue_eq_compare (x y : Decimal) : x.compareValue y = compare x.value y.value := by
  let scale := max x.scale y.scale
  have unit : (0 : ℚ) < 10 ^ scale := by positivity
  have scaled : StrictMono fun value : ℚ => value * 10 ^ scale :=
    fun _ _ less => mul_lt_mul_of_pos_right less unit
  have whole : StrictMono fun value : Int => (value : ℚ) := Int.cast_strictMono
  rw [compareValue_eq, ← cmp_eq_compare, ← whole.cmp_map_eq, digitsAt_cast (Int.le_max_left _ _),
    digitsAt_cast (Int.le_max_right _ _), scaled.cmp_map_eq, cmp_eq_compare]

theorem equals_iff_value {x y : Decimal} : x.equals y ↔ x.value = y.value := by
  rw [equals, compareValue_eq_compare, beq_iff_eq, compare_eq_iff_eq]

end Decimal

end StreamQuery
