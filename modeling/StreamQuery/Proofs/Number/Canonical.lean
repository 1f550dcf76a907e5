import StreamQuery.Proofs.Number.Comparison
namespace StreamQuery

/-! Representatives of numeric values. Two of them have one key only if they are equal, and a number
is represented by one with its own key, unless the number stands for a double that is an integer of
64 bits and is written as another one. -/

namespace Decimal

theorem integral_iff (x : Decimal) (whole : Int) :
    (x.equals (x.withScale 0) ∧ x.digitsAt 0 = whole) ↔ x.value = whole := by
  have cut : (x.withScale 0).value = x.digitsAt 0 := by simp [value, withScale]
  rw [equals_iff_value, cut]
  constructor
  · rintro ⟨same, rfl⟩
    exact same
  · intro same
    have digits : x.digitsAt 0 = whole := by
      rcases Int.le_total x.scale 0 with least | many
      · have cast := digitsAt_cast least
        rw [same, zpow_zero, mul_one] at cast
        exact_mod_cast cast
      · -- The digits end in as many zeros as the scale has places.
        have unit : (powTen x.scale.toNat : Int) ≠ 0 :=
          Int.natCast_ne_zero.mpr (Nat.pow_pos (by decide)).ne'
        have scaled : x.digits = whole * powTen x.scale.toNat := by
          have places : (10 : ℚ) ^ x.scale = powTen x.scale.toNat := by
            rw [powTen_cast, zpow_eq_div, Int.toNat_of_nonpos (Int.neg_nonpos_of_nonneg many)]
            simp
          have cast : (x.digits : ℚ) = whole * powTen x.scale.toNat := by
            rw [← same, value, mul_assoc, ← places, ← zpow_add₀ (by norm_num)]
            simp
          exact_mod_cast cast
        rw [digitsAt_eq]
        split
        · next least =>
            have none : x.scale = 0 := Int.le_antisymm least many
            rw [scaled, none]
            simp [powTen]
        · rw [scaled, Int.sub_zero, Int.mul_tdiv_cancel _ unit]
    exact ⟨by rw [digits, same], digits⟩

end Decimal

namespace BinaryFormat

theorem valueOf_double_large {magnitude : Nat} (large : (2 : ℚ) ^ 53 ≤ double.valueOf magnitude) :
    ∃ whole : Nat, double.valueOf magnitude = whole := by
  rcases exists_block double magnitude with ⟨block, place, inBlock, inner, rfl⟩
  rw [inBlock.valueOf] at large ⊢
  have upward : 0 ≤ double.leastExponent + block := by
    by_contra downward
    have unit : (2 : ℚ) ^ (double.leastExponent + block) ≤ 2 ^ (-1 : Int) :=
      zpow_le_zpow_right₀ (by norm_num) (by omega)
    have fits : (place : ℚ) < 2 ^ 53 := by
      have inner : place < 2 ^ 53 := inner
      exact_mod_cast inner
    have half : (place : ℚ) * 2 ^ (double.leastExponent + block) ≤ place * 2 ^ (-1 : Int) :=
      mul_le_mul_of_nonneg_left unit (Nat.cast_nonneg place)
    norm_num at half
    linarith
  obtain ⟨places, same⟩ := Int.eq_ofNat_of_zero_le upward
  exact ⟨place * 2 ^ places, by rw [same]; push_cast; rw [zpow_natCast]⟩

end BinaryFormat

namespace Decimal

/-- The first double that is too large for an integer of 64 bits is written as a larger number, and
so is the double of its magnitude below zero. -/
theorem shortestOf_outside :
    BinaryFormat.double.shortestOf (Binary.ofInt 9223372036854775808 : Double).magnitude =
      9223372036854776000 := by
  have written : ofDouble (Binary.ofInt 9223372036854775808) = ⟨9223372036854776000, 0⟩ := by
    decide
  have positive : (Binary.ofInt 9223372036854775808 : Double).isNegative = false := by
    decide
  have shown := value_ofDouble (Binary.ofInt 9223372036854775808)
  rw [written, positive, if_neg Bool.false_ne_true] at shown
  rw [← shown]
  norm_num [value]

theorem valueOf_outside :
    BinaryFormat.double.valueOf (Binary.ofInt 9223372036854775808 : Double).magnitude = 2 ^ 63 := by
  have mantissa : BinaryFormat.double.mantissaOf
      (Binary.ofInt 9223372036854775808 : Double).magnitude = 2 ^ 52 := by decide
  have exponent : BinaryFormat.double.exponentOf
      (Binary.ofInt 9223372036854775808 : Double).magnitude = 11 := by decide
  rw [BinaryFormat.valueOf, mantissa, exponent]
  norm_num

theorem abs_value_ofDouble (x : Double) :
    |(ofDouble x).value| = BinaryFormat.double.shortestOf x.magnitude := by
  have nonneg : 0 ≤ BinaryFormat.double.shortestOf x.magnitude := by
    rw [← @BinaryFormat.shortestOf_zero .double]
    exact (BinaryFormat.strictMono_shortestOf (by decide)).monotone (Nat.zero_le _)
  rw [value_ofDouble]
  split
  · rw [abs_neg, abs_of_nonneg nonneg]
  · exact abs_of_nonneg nonneg

theorem exists_value_of_ofDouble {x : Double} {whole : Int64}
    (same : (ofDouble x).value = whole.toInt) : ∃ other : Int64, x.value = other.toInt := by
  have ascending := @BinaryFormat.strictMono_shortestOf .double (by decide)
  by_cases small : whole.toInt.natAbs ≤ exactBound
  · refine ⟨whole, ?_⟩
    have rounded := Binary.value_ofInt small
    have written := value_ofDouble_integer rounded.2 small
    have keys := compare_ofDouble x (Binary.ofInt whole.toInt)
    rw [same, written, compare_eq_iff_eq.mpr rfl, eq_comm, compare_eq_iff_eq] at keys
    rw [Binary.value_eq_ofKey, keys, ← Binary.value_eq_ofKey, rounded.2]
  · have size : BinaryFormat.double.shortestOf x.magnitude = whole.toInt.natAbs := by
      rw [← abs_value_ofDouble, same, Nat.cast_natAbs, Int.cast_abs]
    have least := whole.le_toInt
    have most := whole.toInt_lt
    have above : (2 : ℚ) ^ 53 ≤ BinaryFormat.double.valueOf x.magnitude := by
      rcases @BinaryFormat.exists_valueOf_double (2 ^ 53) (by decide) le_rfl with
        ⟨bound, valueOfBound⟩
      have writtenBound := BinaryFormat.shortestOf_integer valueOfBound le_rfl
      have order : bound < x.magnitude := by
        rw [← ascending.lt_iff_lt, size, writtenBound, Nat.cast_lt]
        exact not_le.mp small
      have larger := BinaryFormat.double.strictMono_valueOf order
      rw [valueOfBound] at larger
      exact_mod_cast larger.le
    have below : BinaryFormat.double.valueOf x.magnitude < 2 ^ 63 := by
      rw [← valueOf_outside]
      refine BinaryFormat.double.strictMono_valueOf ?_
      rw [← ascending.lt_iff_lt, size, shortestOf_outside]
      have bounded : whole.toInt.natAbs < 9223372036854776000 := by omega
      exact_mod_cast bounded
    rcases BinaryFormat.valueOf_double_large above with ⟨other, value⟩
    rw [value] at below
    have fits : other < 2 ^ 63 := by exact_mod_cast below
    rw [Binary.value, value]
    cases x.isNegative with
    | false =>
        refine ⟨Int64.ofInt other, ?_⟩
        rw [Int64.toInt_ofInt_of_le (by omega) (by omega)]
        rfl
    | true =>
        refine ⟨Int64.ofInt (-other), ?_⟩
        rw [Int64.toInt_ofInt_of_le (by omega) (by omega)]
        simp

end Decimal

namespace Number

/-- The representative goes by the double behind a number, the order by the decimal that the double is
written as. Here they say the same: a double that is an integer of 64 bits is written as that integer,
and the double that is written as a decimal with a fraction, or beyond 64 bits, is no such integer. -/
def KeepsValue : Number → Prop
  | .int _ => True
  | .float x => ∀ whole : Int64, x.value = whole.toInt → (Decimal.ofDouble x).value = whole.toInt
  | .decimal x => (∀ whole : Int64, x.value ≠ whole.toInt) →
      (Decimal.ofDouble x.toDouble).value = x.value →
        ∀ whole : Int64, x.toDouble.value ≠ whole.toInt

/-- What a representative is not: a double or a decimal that is an integer of 64 bits, or a decimal
that is how a double is written. -/
def IsCanonical : Number → Prop
  | .int _ => True
  | .float x => ∀ whole : Int64, ¬(x.isFinite ∧ x.value = whole.toInt)
  | .decimal x => (∀ whole : Int64, x.value ≠ whole.toInt) ∧
      ¬(x.toDouble.isFinite ∧ (Decimal.ofDouble x.toDouble).value = x.value)

theorem isCanonical_canonicalFloat (x : Double) : (canonicalFloat x).IsCanonical := by
  rcases canonicalFloat_eq_or x with ⟨whole, becomes⟩ | stays
  · rw [becomes]
    trivial
  · rw [stays]
    intro whole integral
    rw [canonicalFloat_eq_int.mpr integral] at stays
    cases stays

inductive DecimalForm (x : Decimal) : Number → Prop
  | int {whole : Int64} : x.value = whole.toInt → DecimalForm x (.int whole)
  | float : (∀ whole : Int64, x.value ≠ whole.toInt) → x.toDouble.isFinite →
      (Decimal.ofDouble x.toDouble).value = x.value → DecimalForm x (canonicalFloat x.toDouble)
  | decimal : (∀ whole : Int64, x.value ≠ whole.toInt) →
      ¬(x.toDouble.isFinite ∧ (Decimal.ofDouble x.toDouble).value = x.value) →
      DecimalForm x (.decimal x)

theorem canonicalDecimal_form (x : Decimal) : DecimalForm x (canonicalDecimal x) := by
  let test : Option Int64 :=
    if x.equals (x.withScale 0) then StreamQuery.toInt64? (x.digitsAt 0) else none
  have shape : canonicalDecimal x = test.elim
      (if x.toDouble.isFinite && (Decimal.ofDouble x.toDouble).equals x then
        canonicalFloat x.toDouble
      else .decimal x) .int := by
    simp only [canonicalDecimal, test]
    generalize (if x.equals (x.withScale 0) then StreamQuery.toInt64? (x.digitsAt 0)
      else none) = found
    cases found <;> rfl
  have tests (whole : Int64) : test = some whole ↔ x.value = whole.toInt := by
    rw [← Decimal.integral_iff]
    simp only [test]
    split
    · next integral =>
        simp only [integral, true_and]
        constructor
        · exact fun found => (eq_of_toInt64? found).symm
        · intro same
          rw [same, toInt64?_toInt]
    · next fraction => simp [fraction]
  rw [shape]
  cases found : test with
  | some whole => exact .int ((tests whole).mp found)
  | none =>
      have fraction (whole : Int64) : x.value ≠ whole.toInt := by
        intro same
        rw [(tests whole).mpr same] at found
        cases found
      rw [Option.elim_none]
      split
      · next written =>
          rw [Bool.and_eq_true, Decimal.equals_iff_value] at written
          exact .float fraction written.1 written.2
      · next other =>
          rw [Bool.and_eq_true, Decimal.equals_iff_value] at other
          exact .decimal fraction other

theorem isCanonical_canonical (x : Number) : x.canonical.IsCanonical := by
  cases x with
  | int whole => trivial
  | float x => exact isCanonical_canonicalFloat x
  | decimal x =>
      have form := canonicalDecimal_form x
      rw [canonical]
      generalize canonicalDecimal x = result at form ⊢
      cases form with
      | int _ => trivial
      | float _ _ _ => exact isCanonical_canonicalFloat _
      | decimal fraction other => exact ⟨fraction, other⟩

theorem isNaN_canonicalFloat {x : Double} (number : x.isNaN = false) :
    (canonicalFloat x).isNaN = false := by
  rcases canonicalFloat_eq_or x with ⟨whole, becomes⟩ | stays
  · rw [becomes]
    rfl
  · rw [stays]
    exact number

theorem isNaN_canonical {x : Number} (number : x.isNaN = false) : x.canonical.isNaN = false := by
  cases x with
  | int whole => rfl
  | float x => exact isNaN_canonicalFloat number
  | decimal x =>
      have form := canonicalDecimal_form x
      rw [canonical]
      generalize canonicalDecimal x = result at form ⊢
      cases form with
      | int _ => rfl
      | float _ finite _ => exact isNaN_canonicalFloat (Binary.isNaN_eq_false_of_isFinite finite)
      | decimal _ _ => rfl

theorem KeepsValue.key_canonical {x : Number} (keeps : x.KeepsValue) : x.canonical.key = x.key := by
  cases x with
  | int whole => rfl
  | float x =>
      rcases canonicalFloat_eq_or x with ⟨whole, becomes⟩ | stays
      · have integral := canonicalFloat_eq_int.mp becomes
        rw [canonical, becomes, key_float_finite integral.1, keeps whole integral.2]
        rfl
      · rw [canonical, stays]
  | decimal x =>
      have form := canonicalDecimal_form x
      rw [canonical]
      generalize canonicalDecimal x = result at form ⊢
      cases form with
      | int same => exact congrArg (Prod.mk 0) same.symm
      | float fraction finite written =>
          rcases canonicalFloat_eq_or x.toDouble with ⟨whole, becomes⟩ | stays
          · exact absurd (canonicalFloat_eq_int.mp becomes).2 (keeps fraction written whole)
          · rw [stays, key_float_finite finite, written]
            rfl
      | decimal _ _ => rfl

/-! Representatives of different forms have different keys. -/

theorem key_float_eq_inner {x : Double} {value : ℚ} :
    (float x).key = (0, value) ↔ x.isFinite ∧ (Decimal.ofDouble x).value = value := by
  cases finite : x.isFinite with
  | false =>
      rw [key_float_outer finite, Prod.ext_iff]
      cases negative : x.isNegative <;> simp [outerKey, negative]
  | true => simp [key_float_finite finite]

namespace IsCanonical

variable {x : Double} {y : Decimal}

theorem key_float_ne_int (fraction : (float x).IsCanonical) (whole : Int64) :
    (float x).key ≠ (int whole).key := by
  intro same
  rcases key_float_eq_inner.mp same with ⟨finite, written⟩
  rcases Decimal.exists_value_of_ofDouble written with ⟨other, value⟩
  exact fraction other ⟨finite, value⟩

theorem key_decimal_ne_int (fraction : (decimal y).IsCanonical) (whole : Int64) :
    (decimal y).key ≠ (int whole).key :=
  fun same => fraction.1 whole (Prod.ext_iff.mp same).2

theorem key_float_ne_decimal (fraction : (float x).IsCanonical)
    (other : (decimal y).IsCanonical) : (float x).key ≠ (decimal y).key := by
  intro same
  rcases key_float_eq_inner.mp same with ⟨finite, written⟩
  have nonzero : x.isZero = false := by
    refine Bool.eq_false_iff.mpr fun zero => fraction 0 ⟨finite, ?_⟩
    rw [Binary.value, beq_iff_eq.mp zero, BinaryFormat.valueOf_zero]
    simp
  have rounded : y.toDouble = x := by
    rw [← Decimal.toDouble_congr written, Decimal.toDouble_ofDouble finite nonzero]
  exact other.2 (by rw [rounded]; exact ⟨finite, written⟩)

end IsCanonical

/-! Equality. -/

theorem compareKeys_eq_iff {first second : Int × ℚ} :
    compareKeys first second = .eq ↔ first = second := by
  rw [compareKeys, Ordering.then_eq_eq, compare_eq_iff_eq, compare_eq_iff_eq, Prod.ext_iff]

theorem totalCompare_eq_iff {x y : Number}
    (fit : x.isFloat ∨ y.isFloat → x.FitsDouble ∧ y.FitsDouble) :
    x.totalCompare y = .eq ↔ x.key = y.key := by
  rw [totalCompare_eq_compareKeys fit, compareKeys_eq_iff]

theorem key_ne_of_isInfinite {x y : Number} (decimal : x.isDecimal) (infinite : y.isInfinite) :
    x.key ≠ y.key := by
  intro same
  cases x with
  | int x => cases decimal
  | float x => cases decimal
  | decimal x =>
    cases y with
    | int y => cases infinite
    | decimal y => cases infinite
    | float y => simp [isInfinite, (key_float_eq_inner.mp same.symm).1] at infinite

theorem compare?_ne_none {x y : Number} (number : x.isNaN = false) (otherNumber : y.isNaN = false)
    (same : x.key = y.key) : x.compare? y ≠ none := by
  intro apart
  rcases (compare?_eq_none_iff x y).mp apart with nan | nan | beside | beside
  · exact Bool.eq_false_iff.mp number nan
  · exact Bool.eq_false_iff.mp otherNumber nan
  · exact key_ne_of_isInfinite beside.1 beside.2 same
  · exact key_ne_of_isInfinite beside.2 beside.1 same.symm

theorem compare?_eq_iff {x y : Number} (number : x.isNaN = false) (otherNumber : y.isNaN = false)
    (fit : x.isFloat ∨ y.isFloat → x.FitsDouble ∧ y.FitsDouble) :
    x.compare? y = some .eq ↔ x.key = y.key := by
  constructor
  · intro equal
    rw [← totalCompare_eq_iff fit, totalCompare, equal, Option.getD_some]
  · intro same
    have total := (totalCompare_eq_iff fit).mpr same
    rw [totalCompare] at total
    cases compares : x.compare? y with
    | none => exact absurd compares (compare?_ne_none number otherNumber same)
    | some order =>
        rw [compares, Option.getD_some] at total
        rw [total]

end Number

end StreamQuery
