import Mathlib.Data.Rat.Floor
import StreamQuery.Proofs.Number.Canonical
import StreamQuery.Proofs.Number.IntegerArithmetic
namespace StreamQuery

/-! Numbers cut off toward zero, and the integers of 64 and of 32 bits among what is left of them.
The range of 64 bits has one hole in its wall: the double that is the first integer above it is
taken for the last integer in it. -/

/-- The integer that is left of a rational number when its fraction is cut off. -/
def cutOff (value : ℚ) : Int :=
  if value < 0 then ⌈value⌉ else ⌊value⌋

theorem cutOff_neg (value : ℚ) : cutOff (-value) = -cutOff value := by
  rcases lt_trichotomy value 0 with negative | rfl | positive
  · have flipped : ¬-value < 0 := by linarith
    rw [cutOff, cutOff, if_pos negative, if_neg flipped, Int.floor_neg]
  · rfl
  · have flipped : -value < 0 := by linarith
    rw [cutOff, cutOff, if_neg positive.not_gt, if_pos flipped, Int.ceil_neg]

theorem cutOff_div (numerator : Int) (denominator : Nat) :
    cutOff (numerator / denominator) = numerator.tdiv denominator := by
  have natural (size : Nat) :
      cutOff (((size : Int) : ℚ) / denominator) = (size : Int).tdiv denominator := by
    have nonneg : (0 : ℚ) ≤ (size : Int) / denominator := by positivity
    rw [cutOff, if_neg nonneg.not_gt, Rat.floor_intCast_div_natCast]
    rfl
  rcases Int.eq_nat_or_neg numerator with ⟨size, rfl | rfl⟩
  · exact natural size
  · rw [Int.cast_neg, neg_div, cutOff_neg, natural, Int.neg_tdiv]

theorem cutOff_eq_floor {value : ℚ} (positive : 0 < cutOff value) : cutOff value = ⌊value⌋ := by
  rw [cutOff, if_neg]
  intro negative
  have nonpos : ⌈value⌉ ≤ 0 := Int.ceil_le.mpr (by exact_mod_cast negative.le)
  rw [cutOff, if_pos negative] at positive
  omega

namespace Decimal

theorem digitsAt_zero (x : Decimal) : x.digitsAt 0 = cutOff x.value := by
  have ratio : x.value =
      ((x.digits * powTen (-x.scale).toNat : Int) : ℚ) / powTen x.scale.toNat := by
    rw [value, zpow_eq_div, Int.neg_neg, ← mul_div_assoc]
    push_cast
    rw [powTen_cast, powTen_cast]
  rw [ratio, cutOff_div, digitsAt_eq]
  split
  · next whole =>
      rw [Int.toNat_of_nonpos whole, Int.zero_sub]
      exact (Int.tdiv_one _).symm
  · next fraction =>
      rw [Int.toNat_of_nonpos (by omega : -x.scale ≤ 0), Int.sub_zero]
      exact congrArg (Int.tdiv · _) (Int.mul_one _).symm

end Decimal

namespace Binary

theorem truncate?_of_isFinite {x : Double} (finite : x.isFinite) :
    x.truncate? = some (cutOff x.value) := by
  have size : BinaryFormat.double.valueOf x.magnitude =
      ((x.mantissa * powTwo x.exponent.toNat : Nat) : Int) / powTwo (-x.exponent).toNat := by
    have same : BinaryFormat.double.valueOf x.magnitude = x.mantissa * 2 ^ x.exponent := rfl
    rw [same, zpow_eq_div, ← mul_div_assoc]
    push_cast
    rw [powTwo_cast, powTwo_cast]
  rw [truncate?, reading_of_isFinite finite, value, size]
  cases x.isNegative with
  | false =>
      rw [if_neg Bool.false_ne_true, cutOff_div]
      rfl
  | true =>
      rw [if_pos rfl, cutOff_neg, cutOff_div]
      rfl

end Binary

def Number.aboveInt64 : Number :=
  .float (Binary.ofInt 9223372036854775808)

namespace Binary

/-- A double is cut off to `2 ^ 63` only if it is that integer. -/
theorem cutOff_eq_aboveInt64 {x : Double} :
    (x.isFinite ∧ cutOff x.value = 9223372036854775808) ↔ x = ofInt 9223372036854775808 := by
  constructor
  · rintro ⟨_, whole⟩
    rw [cutOff_eq_floor (by omega)] at whole
    have large : (9223372036854775808 : ℚ) ≤ x.value := by
      have below := Int.floor_le x.value
      rw [whole] at below
      exact_mod_cast below
    have sign : x.isNegative = false := by
      by_contra negative
      rw [Bool.not_eq_false] at negative
      have nonneg := BinaryFormat.double.valueOf_nonneg x.magnitude
      rw [value, if_pos negative] at large
      linarith
    have size : x.value = BinaryFormat.double.valueOf x.magnitude := by
      rw [value, sign, if_neg Bool.false_ne_true]
    -- From here on doubles are integers, so that nothing has been cut off.
    rw [size] at large whole
    rcases BinaryFormat.valueOf_double_large (by linarith) with ⟨natural, integral⟩
    rw [integral, Int.floor_natCast] at whole
    have same : BinaryFormat.double.valueOf x.magnitude =
        BinaryFormat.double.valueOf (ofInt 9223372036854775808 : Double).magnitude := by
      rw [integral, Decimal.valueOf_outside]
      have exactly : natural = 2 ^ 63 := by omega
      exact_mod_cast exactly
    exact eq_of_magnitude_eq (sign.trans (by decide))
      (BinaryFormat.double.strictMono_valueOf.injective same)
  · rintro rfl
    have finite : (ofInt 9223372036854775808 : Double).isFinite := by decide
    have whole : (ofInt 9223372036854775808 : Double).truncate? = some 9223372036854775808 := by
      decide
    rw [truncate?_of_isFinite finite] at whole
    exact ⟨finite, Option.some.inj whole⟩

end Binary

namespace Number

/-- What is left of a number when its fraction is cut off; a number that is not finite has no such
integer. -/
def cutOff? : Number → Option Int
  | .int whole => some whole.toInt
  | .float x => if x.isFinite then some (cutOff x.value) else none
  | .decimal x => some (cutOff x.value)

theorem cutOff?_aboveInt64 : aboveInt64.cutOff? = some 9223372036854775808 := by
  have top := Binary.cutOff_eq_aboveInt64.mpr rfl
  rw [aboveInt64, cutOff?, if_pos top.1, top.2]

theorem toInt64?_eq_cutOff? {x : Number} (regular : x ≠ aboveInt64) :
    x.toInt64? = x.cutOff?.bind StreamQuery.toInt64? := by
  cases x with
  | int whole => exact (toInt64?_toInt whole).symm
  | decimal x => exact congrArg StreamQuery.toInt64? x.digitsAt_zero
  | float x =>
      cases finite : x.isFinite with
      | false => simp [toInt64?, cutOff?, Binary.truncate?_of_not_isFinite finite, finite]
      | true =>
          have inside : cutOff x.value ≠ 9223372036854775808 := by
            intro whole
            exact regular (congrArg float (Binary.cutOff_eq_aboveInt64.mp ⟨finite, whole⟩))
          rw [toInt64?, cutOff?, Binary.truncate?_of_isFinite finite, if_pos finite,
            Option.bind_some, Option.bind_some, if_neg inside]

theorem toInt64?_aboveInt64 : aboveInt64.toInt64? = some Int64.maxValue := by
  decide

theorem toInt64?_eq_some_iff_cutOff? (x : Number) (whole : Int64) :
    x.toInt64? = some whole ↔
      x.cutOff? = some whole.toInt ∨ (x = aboveInt64 ∧ whole = Int64.maxValue) := by
  by_cases top : x = aboveInt64
  · have most := whole.toInt_lt
    have outside : whole.toInt ≠ 9223372036854775808 := by omega
    subst top
    rw [toInt64?_aboveInt64, cutOff?_aboveInt64, Option.some_inj, Option.some_inj,
      or_iff_right outside.symm, and_iff_right rfl, eq_comm]
  · rw [toInt64?_eq_cutOff? top, Option.bind_eq_some_iff]
    simp [toInt64?_eq_some_iff, top]

theorem toInt64?_eq_none_iff_cutOff? (x : Number) :
    x.toInt64? = none ↔ x ≠ aboveInt64 ∧
      ∀ whole, x.cutOff? = some whole → ¬(-2 ^ 63 ≤ whole ∧ whole < 2 ^ 63) := by
  by_cases top : x = aboveInt64
  · subst top
    simp [toInt64?_aboveInt64]
  · rw [toInt64?_eq_cutOff? top, Option.bind_eq_none_iff]
    simp only [toInt64?_eq_none_iff, ne_eq, top, not_false_eq_true, true_and]

theorem toInt32?_eq_some_iff {value : Int} {whole : Int32} :
    StreamQuery.toInt32? value = some whole ↔ value = whole.toInt := by
  have least := whole.le_toInt
  have most := whole.toInt_lt
  simp only [StreamQuery.toInt32?]
  constructor
  · intro fits
    split at fits
    · next bounds =>
        cases fits
        exact (Int32.toInt_ofInt_of_le (by omega) (by omega)).symm
    · cases fits
  · rintro rfl
    rw [if_pos (by omega), Int32.ofInt_toInt]

theorem toInt32?_eq_none_iff {value : Int} :
    StreamQuery.toInt32? value = none ↔ ¬(-2 ^ 31 ≤ value ∧ value < 2 ^ 31) := by
  simp only [StreamQuery.toInt32?]
  split <;> simp <;> omega

theorem toInt32?_of_toInt64? (x : Number) :
    (x.toInt64?.bind fun whole => StreamQuery.toInt32? whole.toInt) =
      x.cutOff?.bind StreamQuery.toInt32? := by
  by_cases top : x = aboveInt64
  · subst top
    rw [toInt64?_aboveInt64, cutOff?_aboveInt64]
    rfl
  · rw [toInt64?_eq_cutOff? top, Option.bind_assoc]
    congr 1
    funext whole
    cases fits : StreamQuery.toInt64? whole with
    | some narrow => rw [Option.bind_some, eq_of_toInt64? fits]
    | none =>
        have outside := toInt64?_eq_none_iff.mp fits
        rw [Option.bind_none, eq_comm, toInt32?_eq_none_iff]
        omega

theorem cutOff?_toInt32?_eq_some_iff (x : Number) (whole : Int32) :
    x.cutOff?.bind StreamQuery.toInt32? = some whole ↔ x.cutOff? = some whole.toInt := by
  simp [Option.bind_eq_some_iff, toInt32?_eq_some_iff]

theorem cutOff?_toInt32?_eq_none_iff (x : Number) :
    x.cutOff?.bind StreamQuery.toInt32? = none ↔
      ∀ whole, x.cutOff? = some whole → ¬(-2 ^ 31 ≤ whole ∧ whole < 2 ^ 31) := by
  simp only [Option.bind_eq_none_iff, toInt32?_eq_none_iff]

end Number

end StreamQuery
