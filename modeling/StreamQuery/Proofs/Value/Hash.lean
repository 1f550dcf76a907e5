import StreamQuery.Proofs.Value.Equality
import StreamQuery.Value.Hash
namespace StreamQuery

/-! Values that are structurally equal give a hash the same words, and so equal keys have one hash. -/

namespace Digits

theorem ofNat_tenfold {value : Nat} (positive : 0 < value) :
    ofNat (10 * value) = ofNat value ++ ['0'] := by
  have last : 10 ≤ 10 * value := by omega
  rw [ofNat, Nat.toDigits_of_base_le (by decide) last]
  simp [ofNat, Nat.digitChar]

theorem significant_tenfold (value places : Nat) :
    (ofNat (value * powTen places)).reverse.dropWhile (· == '0') =
      (ofNat value).reverse.dropWhile (· == '0') := by
  induction places with
  | zero => rw [show powTen 0 = 1 from rfl, Nat.mul_one]
  | succ places induction =>
      by_cases zero : value = 0
      · rw [zero, Nat.zero_mul]
      · have positive : 0 < value * powTen places :=
          Nat.mul_pos (Nat.pos_of_ne_zero zero) (Nat.pow_pos (by decide))
        have tenfold : value * powTen (places + 1) = 10 * (value * powTen places) := by
          rw [show powTen (places + 1) = powTen places * 10 from rfl, ← Nat.mul_assoc,
            Nat.mul_comm _ 10]
        rw [tenfold, ofNat_tenfold positive]
        simpa using induction

end Digits

namespace Decimal

/-- More places add zeros, which a hash passes over. -/
theorem hashed_of_digitsAt {x : Decimal} {scale : Int} (least : x.scale ≤ scale) :
    x.hashed = hashed ⟨x.digitsAt scale, scale⟩ := by
  have places := digitsAt_of_le (Int.le_refl x.scale) least
  rw [digitsAt_scale] at places
  have unit : 0 < (powTen (scale - x.scale).toNat : Int) :=
    Int.natCast_pos.mpr (Nat.pow_pos (by decide))
  have sign : x.digitsAt scale < 0 ↔ x.digits < 0 := by
    rw [places]
    refine ⟨fun below => Int.not_le.mp fun least => ?_, fun below => Int.mul_neg_of_neg_of_pos below unit⟩
    exact Int.not_le.mpr below (Int.mul_nonneg least (Int.le_of_lt unit))
  have magnitude : (x.digitsAt scale).natAbs =
      x.digits.natAbs * powTen (scale - x.scale).toNat := by
    rw [places, Int.natAbs_mul, Int.natAbs_natCast]
  simp only [hashed, sign, magnitude, Digits.significant_tenfold]

theorem hashed_of_equals {x y : Decimal} (equal : x.equals y) : x.hashed = y.hashed := by
  have first := Int.le_max_left x.scale y.scale
  have second := Int.le_max_right x.scale y.scale
  rw [hashed_of_digitsAt first, hashed_of_digitsAt second, (equals_iff first second).mp equal]

end Decimal

namespace Binary

variable {format : BinaryFormat} {x y : Binary format}

theorem hashed_of_equals (equal : x.equals y) : x.hashed = y.hashed := by
  have keys := (equals_iff_orderKey.mp equal).2.2
  have magnitudes : x.magnitude = y.magnitude := by
    simp only [orderKey] at keys
    split at keys <;> split at keys <;> omega
  by_cases zero : x.magnitude = 0
  · simp [hashed, isZero, ← magnitudes, zero]
  · have signs : x.isNegative = y.isNegative := by
      simp only [orderKey] at keys
      cases first : x.isNegative <;> cases second : y.isNegative <;>
        simp [first, second] at keys ⊢ <;> omega
    rw [eq_of_magnitude_eq signs magnitudes]

end Binary

namespace Value

theorem hashed_of_samePattern {format : BinaryFormat} {x y : Binary format}
    (same : samePattern x y) : x.hashed = y.hashed := by
  rcases samePattern_iff.mp same with rfl | equal
  · rfl
  · exact Binary.hashed_of_equals equal

theorem length_eq_of_equalItems : {left right : List Value} → equalItems left right →
    left.length = right.length
  | [], [], _ => rfl
  | _ :: _, _ :: _, equal => by
      simp only [equalItems, Bool.and_eq_true] at equal
      exact congrArg (· + 1) (length_eq_of_equalItems equal.2)

theorem length_eq_of_equalFields : {left right : List (String × Value)} → equalFields left right →
    left.length = right.length
  | [], [], _ => rfl
  | _ :: _, _ :: _, equal => by
      simp only [equalFields, Bool.and_eq_true] at equal
      exact congrArg (· + 1) (length_eq_of_equalFields equal.2)

mutual
theorem hashed_of_equals : (left right : Value) → left.equals right → left.hashed = right.hashed
  | .null, right, equal => by cases right <;> first | rfl | cases equal
  | .boolean _, right, equal | .int32 _, right, equal | .int64 _, right, equal
  | .string _, right, equal | .dateTime _, right, equal => by
      cases right <;> first | (rw [eq_of_beq equal]) | cases equal
  | .single _, right, equal | .double _, right, equal => by
      cases right <;> first | (simp only [hashed, hashed_of_samePattern equal]) | cases equal
  | .decimal _, right, equal => by
      cases right <;> first | (simp only [hashed, Decimal.hashed_of_equals equal]) | cases equal
  | .list items, right, equal => by
      cases right <;> first
        | simp only [hashed, hashedItems_of_equalItems items _ equal, length_eq_of_equalItems equal]
        | cases equal
  | .record fields, right, equal => by
      cases right <;> first
        | simp only [hashed, hashedFields_of_equalFields fields _ equal,
            length_eq_of_equalFields equal]
        | cases equal

theorem hashedItems_of_equalItems : (left right : List Value) → equalItems left right →
    hashedItems left = hashedItems right
  | [], right, equal => by cases right <;> first | rfl | cases equal
  | left :: lefts, right, equal => by
      cases right with
      | nil => cases equal
      | cons right rights =>
          simp only [equalItems, Bool.and_eq_true] at equal
          rw [hashedItems, hashedItems, hashed_of_equals left right equal.1,
            hashedItems_of_equalItems lefts rights equal.2]

theorem hashedFields_of_equalFields : (left right : List (String × Value)) →
    equalFields left right → hashedFields left = hashedFields right
  | [], right, equal => by cases right <;> first | rfl | cases equal
  | (key, left) :: lefts, right, equal => by
      cases right with
      | nil => cases equal
      | cons right rights =>
          simp only [equalFields, Bool.and_eq_true] at equal
          rw [hashedFields, hashedFields, eq_of_beq equal.1.1,
            hashed_of_equals left right.2 equal.1.2, hashedFields_of_equalFields lefts rights equal.2]
end

theorem keyHash_of_equalItems {key other : List Value} (equal : equalItems key other) :
    keyHash key = keyHash other := by
  rw [keyHash, keyHash, length_eq_of_equalItems equal, hashedItems_of_equalItems key other equal]

end Value

end StreamQuery
