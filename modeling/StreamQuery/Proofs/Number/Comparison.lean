import StreamQuery.Proofs.Number.DoubleDecimals
namespace StreamQuery

/-! Which numbers compare, and where they stand in their order. Each has a key: what is not finite
goes by its pattern before or behind everything else, and every other number by its value, which for
a double is the decimal that it is written as. The keys decide all comparisons of integers and
decimals, and those with a double if both numbers fit in one. -/

theorem Int64.compare_toInt (x y : Int64) : compare x.toInt y.toInt = compare x y := by
  simp only [compare, compareOfLessAndEq, Int64.lt_iff_toInt_lt, Int64.toInt_inj]

theorem Int64.compare_swap (x y : Int64) : (compare x y).swap = compare y x := by
  rw [← compare_toInt, ← compare_toInt, Int.compare_swap]

namespace Decimal

theorem compareValue_swap (x y : Decimal) : x.compareValue y = (y.compareValue x).swap := by
  rw [compareValue_eq_compare, compareValue_eq_compare, ← cmp_eq_compare, ← cmp_eq_compare,
    cmp_swap]

end Decimal

/-! Which numbers compare. -/

namespace Binary

theorem compare?_eq_none_iff {format : BinaryFormat} (x y : Binary format) :
    x.compare? y = none ↔ x.isNaN ∨ y.isNaN := by
  rw [compare?]
  split
  · next nan => exact iff_of_true rfl (by simpa using nan)
  · next number => exact iff_of_false (Option.some_ne_none _) (by simpa using number)

end Binary

namespace Number

def isNaN : Number → Bool
  | .float x => x.isNaN
  | _ => false

def isFloat : Number → Bool
  | .float _ => true
  | _ => false

def isDecimal : Number → Bool
  | .decimal _ => true
  | _ => false

def isInfinite : Number → Bool
  | .float x => !x.isNaN && !x.isFinite
  | _ => false

theorem isNaN_toDouble {x : Number} (exact : x.isDecimal = false) :
    x.toDouble.isNaN = x.isNaN := by
  cases x with
  | int x => exact Binary.isNaN_ofRatio _ _ _
  | float x => rfl
  | decimal x => cases exact

theorem toDecimal?_eq_none_iff (x : Number) :
    x.toDecimal? = none ↔ x.isNaN ∨ x.isInfinite := by
  cases x with
  | int x => simp [toDecimal?, isNaN, isInfinite]
  | decimal x => simp [toDecimal?, isNaN, isInfinite]
  | float x =>
    cases finite : x.isFinite with
    | true =>
      simp [toDecimal?, isNaN, isInfinite, finite, Binary.isNaN_eq_false_of_isFinite finite]
    | false => cases nan : x.isNaN <;> simp [toDecimal?, isNaN, isInfinite, finite, nan]

theorem compareDecimals?_eq_none_iff (x y : Number) :
    x.compareDecimals? y = none ↔ (x.isNaN ∨ x.isInfinite) ∨ y.isNaN ∨ y.isInfinite := by
  rw [← toDecimal?_eq_none_iff, ← toDecimal?_eq_none_iff, compareDecimals?]
  cases x.toDecimal? <;> cases y.toDecimal? <;> simp

theorem compare?_of_decimal {x y : Number} (decimal : x.isDecimal ∨ y.isDecimal) :
    x.compare? y = x.compareDecimals? y := by
  cases x <;> cases y <;> first | rfl | simp [isDecimal] at decimal

theorem compare?_of_exact {x y : Number} (exact : x.isDecimal = false)
    (otherExact : y.isDecimal = false) (float : x.isFloat ∨ y.isFloat) :
    x.compare? y = x.toDouble.compare? y.toDouble := by
  cases x <;> cases y <;> simp_all [isDecimal, isFloat, compare?]

theorem compare?_eq_none_iff (x y : Number) :
    x.compare? y = none ↔
      x.isNaN ∨ y.isNaN ∨ (x.isDecimal ∧ y.isInfinite) ∨ (x.isInfinite ∧ y.isDecimal) := by
  by_cases decimal : x.isDecimal ∨ y.isDecimal
  · rw [compare?_of_decimal decimal, compareDecimals?_eq_none_iff]
    cases x <;> cases y <;> simp [isDecimal, isNaN, isInfinite] at *
  · simp only [not_or, Bool.not_eq_true] at decimal
    by_cases float : x.isFloat ∨ y.isFloat
    · rw [compare?_of_exact decimal.1 decimal.2 float, Binary.compare?_eq_none_iff,
        isNaN_toDouble decimal.1, isNaN_toDouble decimal.2]
      simp [decimal]
    · cases x <;> cases y <;> simp [isDecimal, isFloat, isNaN, isInfinite, compare?] at *

/-! The order has two sides. -/

theorem compareDecimals?_swap (x y : Number) :
    x.compareDecimals? y = (y.compareDecimals? x).map Ordering.swap := by
  simp only [compareDecimals?]
  cases x.toDecimal? with
  | none => cases y.toDecimal? <;> rfl
  | some first =>
      cases y.toDecimal? with
      | none => rfl
      | some second => exact congrArg some (first.compareValue_swap second)

theorem compare?_swap (x y : Number) : x.compare? y = (y.compare? x).map Ordering.swap := by
  have floats (x y : Double) : x.compare? y = (y.compare? x).map Ordering.swap := by
    simp only [Binary.compare?, Bool.or_comm x.isNaN]
    split
    · rfl
    · exact congrArg some (Int.compare_swap _ _).symm
  cases x with
  | int x =>
      cases y with
      | int y => exact congrArg some (Int64.compare_swap _ _).symm
      | float y => exact floats _ _
      | decimal y => exact compareDecimals?_swap (.int x) (.decimal y)
  | float x =>
      cases y with
      | int y => exact floats _ _
      | float y => exact floats _ _
      | decimal y => exact compareDecimals?_swap (.float x) (.decimal y)
  | decimal x =>
      cases y with
      | int y => exact compareDecimals?_swap (.decimal x) (.int y)
      | float y => exact compareDecimals?_swap (.decimal x) (.float y)
      | decimal y => exact compareDecimals?_swap (.decimal x) (.decimal y)

theorem compare?_self {x : Number} (number : x.isNaN = false) : x.compare? x = some .eq := by
  have compares : x.compare? x ≠ none := by
    rw [ne_eq, compare?_eq_none_iff]
    cases x <;> simp_all [isDecimal, isInfinite]
  have sides := x.compare?_swap x
  cases found : x.compare? x with
  | none => exact absurd found compares
  | some order =>
      rw [found] at sides
      cases order with
      | eq => rfl
      | lt | gt => cases sides

theorem totalCompare_swap (x y : Number) : x.totalCompare y = (y.totalCompare x).swap := by
  have patterns : x.toDouble.totalCompare y.toDouble = (y.toDouble.totalCompare x.toDouble).swap :=
    (Int.compare_swap _ _).symm
  rw [totalCompare, totalCompare, compare?_swap x y, patterns]
  cases y.compare? x <;> rfl

/-! Keys. -/

/-- The side that a number which is not finite stands on, and where it stands there. -/
def outerKey (x : Double) : Int × ℚ :=
  (if x.isNegative then -1 else 1, x.totalKey)

def key : Number → Int × ℚ
  | .int whole => (0, whole.toInt)
  | .float x => if x.isFinite then (0, (Decimal.ofDouble x).value) else outerKey x
  | .decimal x => (0, x.value)

def compareKeys (first second : Int × ℚ) : Ordering :=
  (compare first.1 second.1).then (compare first.2 second.2)

/-- The number can be taken to a double and back. -/
def FitsDouble : Number → Prop
  | .int whole => whole.toInt.natAbs ≤ exactBound
  | .float _ => True
  | .decimal x => x.toDouble.isFinite

/-- Beside a double all numbers have to fit in one. -/
def FitTogether (numbers : List Number) : Prop :=
  (∃ x ∈ numbers, x.isFloat) → ∀ x ∈ numbers, x.FitsDouble

theorem compareKeys_inner (first second : ℚ) :
    compareKeys (0, first) (0, second) = compare first second := rfl

theorem FitsDouble.isFinite {x : Number} (fits : x.FitsDouble) (exact : x.isFloat = false) :
    x.toDouble.isFinite := by
  cases x with
  | int whole => exact (Binary.value_ofInt fits).1
  | float x => cases exact
  | decimal x => exact fits

end Number

namespace Binary

theorem compare_outer {x y : Double} (finite : x.isFinite) (infinite : y.isFinite = false) :
    compare x.totalKey y.totalKey = compare (0 : Int) (if y.isNegative then -1 else 1) ∧
      compare x.orderKey y.orderKey = compare (0 : Int) (if y.isNegative then -1 else 1) := by
  simp only [isFinite, decide_eq_true_eq, decide_eq_false_iff_not, not_lt] at finite infinite
  have sides : x.magnitude < y.magnitude := Nat.lt_of_lt_of_le finite infinite
  simp only [totalKey, orderKey]
  cases y.isNegative with
  | true =>
      have beyond : compare (0 : Int) (if true = true then -1 else 1) = .gt := by decide
      rw [beyond, Int.compare_eq_gt, Int.compare_eq_gt]
      cases x.isNegative <;> simp <;> omega
  | false =>
      have beyond : compare (0 : Int) (if false = true then -1 else 1) = .lt := by decide
      rw [beyond, Int.compare_eq_lt, Int.compare_eq_lt]
      cases x.isNegative <;> simp <;> omega

end Binary

namespace Number

theorem compareKeys_swap (first second : Int × ℚ) :
    compareKeys first second = (compareKeys second first).swap := by
  rw [compareKeys, compareKeys, Ordering.swap_then, Int.compare_swap, ← cmp_eq_compare first.2,
    ← cmp_eq_compare second.2, cmp_swap]

theorem compareKeys_outer (inner : ℚ) (y : Double) :
    compareKeys (0, inner) (outerKey y) = compare (0 : Int) (if y.isNegative then -1 else 1) := by
  rw [compareKeys, outerKey]
  cases y.isNegative <;> rfl

theorem key_float_finite {x : Double} (finite : x.isFinite) :
    (float x).key = (0, (Decimal.ofDouble x).value) :=
  if_pos finite

theorem key_float_outer {x : Double} (infinite : x.isFinite = false) :
    (float x).key = outerKey x :=
  if_neg (Bool.eq_false_iff.mp infinite)

theorem compare_totalKey_outer (x y : Double) :
    compareKeys (outerKey x) (outerKey y) = compare x.totalKey y.totalKey := by
  have whole : StrictMono fun value : Int => (value : ℚ) := Int.cast_strictMono
  have inner : compare (x.totalKey : ℚ) y.totalKey = compare x.totalKey y.totalKey := by
    rw [← cmp_eq_compare, ← cmp_eq_compare, whole.cmp_map_eq]
  rw [compareKeys, outerKey, outerKey, inner]
  cases negative : x.isNegative <;> cases otherNegative : y.isNegative
  · rfl
  · have order : compare x.totalKey y.totalKey = .gt := by
      rw [Int.compare_eq_gt]
      simp only [Binary.totalKey, negative, otherNegative, if_true, Bool.false_eq_true, if_false]
      omega
    rw [order]
    rfl
  · have order : compare x.totalKey y.totalKey = .lt := by
      rw [Int.compare_eq_lt]
      simp only [Binary.totalKey, negative, otherNegative, if_true, Bool.false_eq_true, if_false]
      omega
    rw [order]
    rfl
  · rfl

theorem compare_orderKey_outer {x y : Double} (infinite : x.isFinite = false)
    (otherInfinite : y.isFinite = false) (number : x.isNaN = false)
    (otherNumber : y.isNaN = false) :
    compare x.orderKey y.orderKey = compare x.totalKey y.totalKey := by
  have magnitude {x : Double} (infinite : x.isFinite = false) (number : x.isNaN = false) :
      x.magnitude = BinaryFormat.double.infinity := by
    simp only [Binary.isFinite, Binary.isNaN, decide_eq_false_iff_not] at infinite number
    omega
  rw [Binary.orderKey, Binary.orderKey, Binary.totalKey, Binary.totalKey,
    magnitude infinite number, magnitude otherInfinite otherNumber]
  cases x.isNegative <;> cases y.isNegative <;> decide

theorem compareKeys_floats (x y : Double) :
    (x.compare? y).getD (x.totalCompare y) = compareKeys (float x).key (float y).key := by
  have outside {x y : Double} (finite : x.isFinite) (infinite : y.isFinite = false) :
      (x.compare? y).getD (x.totalCompare y) = compareKeys (float x).key (float y).key := by
    have outer := Binary.compare_outer finite infinite
    rw [key_float_finite finite, key_float_outer infinite, compareKeys_outer, Binary.compare?,
      Binary.totalCompare]
    split
    · exact outer.1
    · exact outer.2
  cases finite : x.isFinite <;> cases otherFinite : y.isFinite
  · rw [key_float_outer finite, key_float_outer otherFinite, compare_totalKey_outer,
      Binary.compare?,
      Binary.totalCompare]
    split
    · rfl
    · next numbers =>
        simp only [Bool.or_eq_true, not_or, Bool.not_eq_true] at numbers
        exact compare_orderKey_outer finite otherFinite numbers.1 numbers.2
  · have swapped := totalCompare_swap (float x) (float y)
    exact swapped.trans
      ((congrArg Ordering.swap (outside otherFinite finite)).trans (compareKeys_swap _ _).symm)
  · exact outside finite otherFinite
  · rw [key_float_finite finite, key_float_finite otherFinite, compareKeys_inner,
      Decimal.compare_ofDouble, Binary.compare?, Binary.isNaN_eq_false_of_isFinite finite,
      Binary.isNaN_eq_false_of_isFinite otherFinite]
    rfl

theorem totalCompare_float {x : Number} (fits : x.FitsDouble) (y : Double) :
    x.totalCompare (.float y) = compareKeys x.key (Number.float y).key := by
  cases x with
  | float x => exact compareKeys_floats x y
  | int x =>
      have rounded := Binary.value_ofInt fits
      have same : (int x).key = (float (Binary.ofInt x.toInt)).key := by
        rw [key_float_finite rounded.1, Decimal.value_ofDouble_integer rounded.2 fits]
        rfl
      rw [same]
      exact compareKeys_floats (Binary.ofInt x.toInt) y
  | decimal x =>
      cases finite : y.isFinite with
      | true =>
          have compares : (decimal x).compare? (.float y) =
              some (x.compareValue (.ofDouble y)) := by
            simp [compare?, compareDecimals?, toDecimal?, finite]
          rw [totalCompare, compares, key_float_finite finite, Option.getD_some,
            Decimal.compareValue_eq_compare]
          rfl
      | false =>
          have compares : (decimal x).compare? (.float y) = none := by
            simp [compare?, compareDecimals?, toDecimal?, finite]
          have outer := (Binary.compare_outer fits finite).1
          rw [totalCompare, compares, key_float_outer finite]
          exact outer.trans (compareKeys_outer x.value y).symm

/-- The keys decide the order. -/
theorem totalCompare_eq_compareKeys {x y : Number}
    (fit : x.isFloat ∨ y.isFloat → x.FitsDouble ∧ y.FitsDouble) :
    x.totalCompare y = compareKeys x.key y.key := by
  have whole : StrictMono fun value : Int => (value : ℚ) := Int.cast_strictMono
  cases y with
  | float y => exact totalCompare_float (fit (.inr rfl)).1 y
  | int y =>
      cases x with
      | float x =>
          rw [totalCompare_swap, totalCompare_float (fit (.inl rfl)).2, ← compareKeys_swap]
      | int x =>
          have compares : (int x).totalCompare (int y) = compare x.toInt y.toInt :=
            (Int64.compare_toInt x y).symm
          have keys : compareKeys (int x).key (int y).key = compare (x.toInt : ℚ) y.toInt := rfl
          rw [compares, keys, ← cmp_eq_compare, ← cmp_eq_compare, whole.cmp_map_eq]
      | decimal x =>
          have compares : (decimal x).totalCompare (int y) = x.compareValue (.ofInt y.toInt) := rfl
          rw [compares, Decimal.compareValue_eq_compare, Decimal.value_ofInt]
          rfl
  | decimal y =>
      cases x with
      | float x =>
          rw [totalCompare_swap, totalCompare_float (fit (.inl rfl)).2, ← compareKeys_swap]
      | int x =>
          have compares : (int x).totalCompare (decimal y) =
              (Decimal.ofInt x.toInt).compareValue y := rfl
          rw [compares, Decimal.compareValue_eq_compare, Decimal.value_ofInt]
          rfl
      | decimal x => exact x.compareValue_eq_compare y

end Number

end StreamQuery
