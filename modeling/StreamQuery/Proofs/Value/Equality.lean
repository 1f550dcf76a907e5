import StreamQuery.Value.Order
namespace StreamQuery

/-! Structural equality sorts values into classes: it holds of a value and itself, in both directions,
and of two values if both equal a third. -/

namespace Decimal

variable {x y z : Decimal}

theorem digitsAt_of_le {few many : Int} (least : x.scale ≤ few) (more : few ≤ many) :
    x.digitsAt many = x.digitsAt few * powTen (many - few).toNat := by
  have places : (many - x.scale).toNat = (few - x.scale).toNat + (many - few).toNat := by omega
  rw [digitsAt_eq, digitsAt_eq, if_pos (Int.le_trans least more), if_pos least, places]
  simp only [powTen, Nat.pow_eq, Nat.pow_add, Int.natCast_mul, Int.mul_assoc]

theorem equals_iff {scale : Int} (first : x.scale ≤ scale) (second : y.scale ≤ scale) :
    x.equals y ↔ x.digitsAt scale = y.digitsAt scale := by
  have both : max x.scale y.scale ≤ scale := Int.max_le.mpr ⟨first, second⟩
  have unit : (powTen (scale - max x.scale y.scale).toNat : Int) ≠ 0 :=
    Int.natCast_ne_zero.mpr (Nat.pos_iff_ne_zero.mp (Nat.pow_pos (by decide)))
  rw [digitsAt_of_le (Int.le_max_left x.scale y.scale) both,
    digitsAt_of_le (Int.le_max_right x.scale y.scale) both, Int.mul_eq_mul_right_iff unit, equals,
    compareValue_eq, beq_iff_eq, Int.compare_eq_eq]

theorem equals_self (x : Decimal) : x.equals x :=
  (equals_iff (Int.le_refl _) (Int.le_refl _)).mpr rfl

theorem equals_symm (equal : x.equals y) : y.equals x := by
  have first := Int.le_max_left x.scale y.scale
  have second := Int.le_max_right x.scale y.scale
  rw [equals_iff first second] at equal
  exact (equals_iff second first).mpr equal.symm

theorem equals_trans (first : x.equals y) (second : y.equals z) : x.equals z := by
  let scale := max x.scale (max y.scale z.scale)
  have ofX : x.scale ≤ scale := by omega
  have ofY : y.scale ≤ scale := by omega
  have ofZ : z.scale ≤ scale := by omega
  rw [equals_iff ofX ofY] at first
  rw [equals_iff ofY ofZ] at second
  exact (equals_iff ofX ofZ).mpr (first.trans second)

end Decimal

namespace Binary

variable {format : BinaryFormat} {x y z : Binary format}

theorem eq_of_magnitude_eq (sign : x.isNegative = y.isNegative)
    (same : x.magnitude = y.magnitude) : x = y := by
  have width : 2 ^ format.width = 2 * signWeight format := by
    simp only [signWeight, powTwo, BinaryFormat.width, Nat.pow_eq]
    omega
  have bound := x.bits.isLt
  have otherBound := y.bits.isLt
  simp only [isNegative, decide_eq_decide] at sign
  simp only [magnitude] at same
  have bits : x.bits.toNat = y.bits.toNat := by
    rw [width] at bound otherBound
    by_cases negative : signWeight format ≤ x.bits.toNat
    · have otherNegative := sign.mp negative
      rw [Nat.mod_eq_sub_mod negative, Nat.mod_eq_of_lt (by omega),
        Nat.mod_eq_sub_mod otherNegative, Nat.mod_eq_of_lt (by omega)] at same
      omega
    · have otherPositive := mt sign.mpr negative
      rwa [Nat.mod_eq_of_lt (by omega), Nat.mod_eq_of_lt (by omega)] at same
  cases x
  cases y
  exact congrArg mk (BitVec.eq_of_toNat_eq bits)

theorem equals_iff_orderKey :
    x.equals y ↔ x.isNaN = false ∧ y.isNaN = false ∧ x.orderKey = y.orderKey := by
  cases first : x.isNaN <;> cases second : y.isNaN <;> simp [equals, compare?, first, second]

theorem equals_symm (equal : x.equals y) : y.equals x := by
  rw [equals_iff_orderKey] at equal ⊢
  exact ⟨equal.2.1, equal.1, equal.2.2.symm⟩

theorem equals_trans (first : x.equals y) (second : y.equals z) : x.equals z := by
  rw [equals_iff_orderKey] at first second ⊢
  exact ⟨first.1, second.2.1, first.2.2.trans second.2.2⟩

end Binary

namespace Value

section
variable {format : BinaryFormat} {x y z : Binary format}

theorem samePattern_iff : samePattern x y ↔ x = y ∨ x.equals y := by
  simp [samePattern]

theorem samePattern_symm (same : samePattern x y) : samePattern y x := by
  rw [samePattern_iff] at same ⊢
  exact same.imp Eq.symm Binary.equals_symm

theorem samePattern_trans (first : samePattern x y) (second : samePattern y z) :
    samePattern x z := by
  rw [samePattern_iff] at first second ⊢
  rcases first with rfl | first
  · exact second
  · rcases second with rfl | second
    · exact .inr first
    · exact .inr (Binary.equals_trans first second)

end

mutual
theorem equals_self : (value : Value) → value.equals value
  | .null => rfl
  | .boolean _ | .int32 _ | .int64 _ | .single _ | .double _ | .string _ | .dateTime _ => by
      simp [equals, samePattern]
  | .decimal value => value.equals_self
  | .list items => equalItems_self items
  | .record fields => equalFields_self fields

theorem equalItems_self : (items : List Value) → equalItems items items
  | [] => rfl
  | item :: rest => by simp [equalItems, equals_self item, equalItems_self rest]

theorem equalFields_self : (fields : List (String × Value)) → equalFields fields fields
  | [] => rfl
  | (_, value) :: rest => by simp [equalFields, equals_self value, equalFields_self rest]
end

mutual
theorem equals_symm : (left right : Value) → left.equals right → right.equals left
  | .null, right, equal => by cases right <;> first | rfl | cases equal
  | .boolean _, right, equal | .int32 _, right, equal | .int64 _, right, equal
  | .string _, right, equal | .dateTime _, right, equal => by
      cases right <;> first | exact BEq.symm equal | cases equal
  | .single _, right, equal | .double _, right, equal => by
      cases right <;> first | exact samePattern_symm equal | cases equal
  | .decimal _, right, equal => by
      cases right <;> first | exact Decimal.equals_symm equal | cases equal
  | .list items, right, equal => by
      cases right <;> first | exact equalItems_symm items _ equal | cases equal
  | .record fields, right, equal => by
      cases right <;> first | exact equalFields_symm fields _ equal | cases equal

theorem equalItems_symm : (left right : List Value) → equalItems left right → equalItems right left
  | [], right, equal => by cases right <;> first | rfl | cases equal
  | left :: lefts, right, equal => by
      cases right with
      | nil => cases equal
      | cons right rights =>
          simp only [equalItems, Bool.and_eq_true] at equal ⊢
          exact ⟨equals_symm left right equal.1, equalItems_symm lefts rights equal.2⟩

theorem equalFields_symm : (left right : List (String × Value)) → equalFields left right →
    equalFields right left
  | [], right, equal => by cases right <;> first | rfl | cases equal
  | (key, left) :: lefts, right, equal => by
      cases right with
      | nil => cases equal
      | cons right rights =>
          simp only [equalFields, Bool.and_eq_true] at equal ⊢
          exact ⟨⟨BEq.symm equal.1.1, equals_symm left right.2 equal.1.2⟩,
            equalFields_symm lefts rights equal.2⟩
end

mutual
theorem equals_trans : (left middle right : Value) → left.equals middle → middle.equals right →
    left.equals right
  | .null, middle, right, first, second => by
      cases middle <;> first | exact second | cases first
  | .boolean _, middle, right, first, second | .int32 _, middle, right, first, second
  | .int64 _, middle, right, first, second | .string _, middle, right, first, second
  | .dateTime _, middle, right, first, second => by
      cases middle <;> first | (rw [eq_of_beq first]; exact second) | cases first
  | .single _, middle, right, first, second => by
      cases middle with
      | single _ => cases right <;> first | exact samePattern_trans first second | cases second
      | _ => cases first
  | .double _, middle, right, first, second => by
      cases middle with
      | double _ => cases right <;> first | exact samePattern_trans first second | cases second
      | _ => cases first
  | .decimal _, middle, right, first, second => by
      cases middle with
      | decimal _ => cases right <;> first | exact Decimal.equals_trans first second | cases second
      | _ => cases first
  | .list items, middle, right, first, second => by
      cases middle with
      | list _ => cases right <;> first | exact equalItems_trans items _ _ first second | cases second
      | _ => cases first
  | .record fields, middle, right, first, second => by
      cases middle with
      | record _ =>
          cases right <;> first | exact equalFields_trans fields _ _ first second | cases second
      | _ => cases first

theorem equalItems_trans : (left middle right : List Value) → equalItems left middle →
    equalItems middle right → equalItems left right
  | [], middle, right, first, second => by cases middle <;> first | exact second | cases first
  | left :: lefts, middle, right, first, second => by
      cases middle with
      | nil => cases first
      | cons middle middles =>
          cases right with
          | nil => cases second
          | cons right rights =>
              simp only [equalItems, Bool.and_eq_true] at first second ⊢
              exact ⟨equals_trans left middle right first.1 second.1,
                equalItems_trans lefts middles rights first.2 second.2⟩

theorem equalFields_trans : (left middle right : List (String × Value)) →
    equalFields left middle → equalFields middle right → equalFields left right
  | [], middle, right, first, second => by cases middle <;> first | exact second | cases first
  | (_, left) :: lefts, middle, right, first, second => by
      cases middle with
      | nil => cases first
      | cons middle middles =>
          cases right with
          | nil => cases second
          | cons right rights =>
              simp only [equalFields, Bool.and_eq_true] at first second ⊢
              exact ⟨⟨BEq.trans first.1.1 second.1.1,
                equals_trans left middle.2 right.2 first.1.2 second.1.2⟩,
                equalFields_trans lefts middles rights first.2 second.2⟩
end

end Value

end StreamQuery
