import Mathlib.Data.Int.ConditionallyCompleteOrder
import StreamQuery.Proofs.Number.ShortestDecimals
import StreamQuery.Proofs.Syntax.Definite
namespace StreamQuery

/-! Finite doubles and the decimals that they are written as. The decimal goes back to the double,
the order is kept, and integers of at most fifty-three bits are kept as they are. -/

def exactBound : Nat := 2 ^ 53

namespace Binary

def value (x : Double) : ℚ :=
  if x.isNegative then -BinaryFormat.double.valueOf x.magnitude
  else BinaryFormat.double.valueOf x.magnitude

/-- The signed magnitude of a pattern, as a function of its order key. -/
def ofKey (measure : Nat → ℚ) (key : Int) : ℚ :=
  if key < 0 then -measure key.natAbs else measure key.natAbs

variable {measure : Nat → ℚ}

theorem strictMono_ofKey (zero : measure 0 = 0) (ascending : StrictMono measure) :
    StrictMono (ofKey measure) := by
  have nonneg (magnitude : Nat) : 0 ≤ measure magnitude := by
    rw [← zero]
    exact ascending.monotone (Nat.zero_le magnitude)
  intro lower upper less
  simp only [ofKey]
  by_cases negative : lower < 0
  · rw [if_pos negative]
    by_cases both : upper < 0
    · rw [if_pos both, neg_lt_neg_iff]
      exact ascending (by omega)
    · rw [if_neg both]
      have below : 0 < measure lower.natAbs := by
        rw [← zero]
        exact ascending (by omega)
      linarith [nonneg upper.natAbs]
  · rw [if_neg negative, if_neg (by omega)]
    exact ascending (by omega)

theorem signed_eq_ofKey (zero : measure 0 = 0) (x : Double) :
    (if x.isNegative then -measure x.magnitude else measure x.magnitude) =
      ofKey measure x.orderKey := by
  simp only [ofKey, orderKey]
  by_cases negative : x.isNegative
  · rcases Nat.eq_zero_or_pos x.magnitude with none | positive
    · simp [negative, none, zero]
    · simp [negative, positive]
  · simp [negative]

theorem value_eq_ofKey (x : Double) : x.value = ofKey BinaryFormat.double.valueOf x.orderKey :=
  signed_eq_ofKey BinaryFormat.valueOf_zero x

end Binary

namespace Decimal

theorem value_ofDouble (x : Double) :
    (ofDouble x).value =
      if x.isNegative then -BinaryFormat.double.shortestOf x.magnitude
      else BinaryFormat.double.shortestOf x.magnitude := by
  have written : x.shortestDigits.value = BinaryFormat.double.shortestOf x.magnitude := rfl
  have scaled : (x.shortestDigits.digits * powTen x.shortestDigits.exponent.toNat : Nat) *
      (10 : ℚ) ^ (-((-x.shortestDigits.exponent).toNat : Int)) = x.shortestDigits.value := by
    rw [DecimalDigits.value, zpow_eq_div 10 x.shortestDigits.exponent, zpow_neg, zpow_natCast]
    push_cast
    rw [powTen_cast]
    ring
  rw [← written, ← scaled]
  simp only [ofDouble, value, Binary.signed]
  cases x.isNegative <;> simp

theorem value_ofDouble_eq_ofKey (x : Double) :
    (ofDouble x).value = Binary.ofKey BinaryFormat.double.shortestOf x.orderKey :=
  (value_ofDouble x).trans (Binary.signed_eq_ofKey BinaryFormat.shortestOf_zero x)

theorem compare_ofDouble (x y : Double) :
    compare (ofDouble x).value (ofDouble y).value = compare x.orderKey y.orderKey := by
  have ascending : StrictMono (Binary.ofKey BinaryFormat.double.shortestOf) :=
    Binary.strictMono_ofKey BinaryFormat.shortestOf_zero
      (BinaryFormat.strictMono_shortestOf (by decide))
  rw [value_ofDouble_eq_ofKey, value_ofDouble_eq_ofKey, ← cmp_eq_compare, ← cmp_eq_compare,
    ascending.cmp_map_eq]

/-- The decimal that a double is written as is rounded to the double. -/
theorem toDouble_ofDouble {x : Double} (finite : x.isFinite) (nonzero : x.isZero = false) :
    (ofDouble x).toDouble = x := by
  have positive : 0 < x.magnitude := Nat.pos_of_ne_zero (beq_eq_false_iff_ne.mp nonzero)
  have bounded : x.magnitude < BinaryFormat.double.infinity := of_decide_eq_true finite
  have rounds := @BinaryFormat.roundsTo_shortestOf .double x.magnitude (by decide) positive
  have present := rounds.pos positive
  have sign : decide ((ofDouble x).value < 0) = x.isNegative := by
    rw [value_ofDouble]
    cases x.isNegative
    · simpa using present.le
    · simpa using present
  have size : |(ofDouble x).value| = BinaryFormat.double.shortestOf x.magnitude := by
    rw [value_ofDouble]
    split
    · rw [abs_neg, abs_of_pos present]
    · exact abs_of_pos present
  have different : (ofDouble x).value ≠ 0 := by
    rw [← abs_ne_zero, size]
    exact present.ne'
  rcases toDouble_rounds different with ⟨magnitude, near, result⟩
  rw [size] at near
  have below := bounded.trans (Binary.infinity_lt_signWeight .double)
  rw [result, near.unique rounds, Nat.min_eq_left bounded.le, sign]
  exact Binary.eq_of_magnitude_eq (Binary.isNegative_ofMagnitude _ below)
    (Binary.magnitude_ofMagnitude _ below)

theorem value_ofDouble_integer {x : Double} {whole : Int} (same : x.value = whole)
    (bounded : whole.natAbs ≤ exactBound) : (ofDouble x).value = whole := by
  have size : BinaryFormat.double.valueOf x.magnitude = whole.natAbs := by
    have nonneg := BinaryFormat.double.valueOf_nonneg x.magnitude
    rw [Nat.cast_natAbs, Int.cast_abs, ← same, Binary.value]
    split
    · rw [abs_neg, abs_of_nonneg nonneg]
    · rw [abs_of_nonneg nonneg]
  rw [value_ofDouble, BinaryFormat.shortestOf_integer size bounded, ← size, ← same, Binary.value]

end Decimal

namespace Binary

theorem isNaN_eq_false_of_isFinite {format : BinaryFormat} {x : Binary format}
    (finite : x.isFinite) : x.isNaN = false := by
  simp only [isFinite, isNaN, decide_eq_true_eq, decide_eq_false_iff_not] at *
  omega

theorem reading_of_isFinite {format : BinaryFormat} {x : Binary format} (finite : x.isFinite) :
    x.reading = .finite x.isNegative x.mantissa x.exponent := by
  simp [reading, isNaN_eq_false_of_isFinite finite, finite]

theorem truncate?_of_not_isFinite {format : BinaryFormat} {x : Binary format}
    (infinite : x.isFinite = false) : x.truncate? = none := by
  cases nan : x.isNaN <;> simp [truncate?, reading, infinite, nan]

theorem isNaN_ofMagnitude {format : BinaryFormat} {magnitude : Nat} (negative : Bool)
    (bounded : magnitude ≤ format.infinity) :
    (ofMagnitude negative magnitude : Binary format).isNaN = false := by
  have below := Nat.lt_of_le_of_lt bounded (infinity_lt_signWeight format)
  rw [isNaN, magnitude_ofMagnitude negative below, decide_eq_false_iff_not]
  exact Nat.not_lt.mpr bounded

theorem isNaN_ofRatio {format : BinaryFormat} (negative : Bool) (numerator denominator : Nat) :
    (ofRatio negative numerator denominator : Binary format).isNaN = false := by
  rw [ofRatio]
  split
  · exact isNaN_ofMagnitude _ (Nat.zero_le _)
  · exact isNaN_ofMagnitude _ (Nat.min_le_right _ _)

theorem value_ofInt {whole : Int} (bounded : whole.natAbs ≤ exactBound) :
    (ofInt whole : Double).isFinite ∧ (ofInt whole : Double).value = whole := by
  rcases Nat.eq_zero_or_pos whole.natAbs with none | positive
  · obtain rfl := Int.natAbs_eq_zero.mp none
    have zero : (ofInt 0 : Double).magnitude = 0 := by decide
    refine ⟨by decide, ?_⟩
    rw [value, zero, BinaryFormat.valueOf_zero]
    simp
  · rcases @ofRatio_rounds .double (by decide) (whole < 0) _ 1 positive Nat.one_pos with
      ⟨magnitude, rounds, result⟩
    rcases BinaryFormat.exists_valueOf_double positive bounded with ⟨exactly, same⟩
    obtain rfl : magnitude = exactly := by
      rw [Nat.cast_one, div_one, ← same] at rounds
      exact rounds.unique (BinaryFormat.roundsTo_valueOf exactly)
    have finite : magnitude < BinaryFormat.double.infinity := by
      have ascending := @BinaryFormat.strictMono_valueOf .double
      rw [← ascending.lt_iff_lt, valueOf_infinity_double, same]
      calc (whole.natAbs : ℚ) ≤ 2 ^ 53 := by exact_mod_cast bounded
        _ < 2 ^ 1024 := pow_lt_pow_right₀ (by norm_num) (by norm_num)
    have below := finite.trans (infinity_lt_signWeight .double)
    have number : (ofInt whole : Double) = ofMagnitude (whole < 0) magnitude := by
      rw [ofInt, result, Nat.min_eq_left finite.le]
    rw [number]
    refine ⟨?_, ?_⟩
    · rw [isFinite, magnitude_ofMagnitude _ below, decide_eq_true_eq]
      exact finite
    · rw [value, isNegative_ofMagnitude _ below, magnitude_ofMagnitude _ below, same,
        Nat.cast_natAbs, Int.cast_abs]
      by_cases negative : whole < 0
      · have real : (whole : ℚ) < 0 := Int.cast_lt_zero.mpr negative
        simp [negative, abs_of_neg real]
      · have real : (0 : ℚ) ≤ whole := Int.cast_nonneg (not_lt.mp negative)
        simp [negative, abs_of_nonneg real]

/-! Integral doubles. -/

theorem integral_iff (mantissa : Nat) (exponent : Int) (whole : Nat) :
    mantissa % powTwo (-exponent).toNat = 0 ∧
        mantissa * powTwo exponent.toNat / powTwo (-exponent).toNat = whole ↔
      (mantissa * 2 ^ exponent : ℚ) = whole := by
  have unit := BinaryFormat.powTwo_pos (-exponent).toNat
  have scaled : (mantissa * 2 ^ exponent : ℚ) = whole ↔
      mantissa * powTwo exponent.toNat = whole * powTwo (-exponent).toNat := by
    rw [zpow_eq_div, ← mul_div_assoc, div_eq_iff (by positivity), ← powTwo_cast, ← powTwo_cast]
    norm_cast
  rw [scaled]
  constructor
  · rintro ⟨divides, rfl⟩
    have whole := Dvd.dvd.mul_right (Nat.dvd_of_mod_eq_zero divides) (powTwo exponent.toNat)
    exact (Nat.div_mul_cancel whole).symm
  · intro same
    rw [same, Nat.mul_div_cancel _ unit]
    refine ⟨?_, rfl⟩
    rcases Int.le_total 0 exponent with upward | downward
    · have one : (-exponent).toNat = 0 := by omega
      rw [one]
      exact Nat.mod_one mantissa
    · have none : exponent.toNat = 0 := by omega
      rw [none] at same
      have divided : mantissa = whole * powTwo (-exponent).toNat := by
        rw [← same]
        exact (Nat.mul_one mantissa).symm
      rw [divided, Nat.mul_mod_left]

end Binary

namespace Number

theorem toInt64?_toInt (whole : Int64) : StreamQuery.toInt64? whole.toInt = some whole := by
  have least := whole.le_toInt
  have most := whole.toInt_lt
  rw [StreamQuery.toInt64?, if_pos (by omega), Int64.ofInt_toInt]

theorem eq_of_toInt64? {value : Int} {whole : Int64}
    (fits : StreamQuery.toInt64? value = some whole) : whole.toInt = value := by
  simp only [StreamQuery.toInt64?] at fits
  split at fits
  · next bounds =>
      cases fits
      exact Int64.toInt_ofInt_of_le (by omega) (by omega)
  · cases fits

theorem canonicalFloat_of_not_isFinite {x : Double} (infinite : x.isFinite = false) :
    canonicalFloat x = .float x := by
  rw [canonicalFloat, Binary.truncate?_of_not_isFinite infinite]

theorem canonicalFloat_of_isFinite {x : Double} (finite : x.isFinite) :
    canonicalFloat x =
      if x.mantissa % powTwo (-x.exponent).toNat = 0 then
        ((StreamQuery.toInt64? (Binary.signed x.isNegative
          (x.mantissa * powTwo x.exponent.toNat / powTwo (-x.exponent).toNat))).map .int).getD
            (.float x)
      else .float x := by
  simp [canonicalFloat, Binary.truncate?, Binary.isIntegral, Binary.reading_of_isFinite finite]

theorem canonicalFloat_eq_int {x : Double} {whole : Int64} :
    canonicalFloat x = .int whole ↔ x.isFinite ∧ x.value = whole.toInt := by
  cases finite : x.isFinite with
  | false => simp [canonicalFloat_of_not_isFinite finite]
  | true =>
      have size : BinaryFormat.double.valueOf x.magnitude = x.mantissa * 2 ^ x.exponent := rfl
      rw [canonicalFloat_of_isFinite finite, Binary.value, size]
      constructor
      · intro becomes
        split at becomes
        · next integral =>
            cases fits : StreamQuery.toInt64? (Binary.signed x.isNegative
                (x.mantissa * powTwo x.exponent.toNat / powTwo (-x.exponent).toNat)) with
            | none =>
                rw [fits] at becomes
                cases becomes
            | some other =>
                rw [fits] at becomes
                cases becomes
                refine ⟨rfl, ?_⟩
                rw [(Binary.integral_iff _ _ _).mp ⟨integral, rfl⟩, eq_of_toInt64? fits,
                  Binary.signed]
                split <;> push_cast <;> rfl
        · cases becomes
      · rintro ⟨_, same⟩
        have size : (x.mantissa * 2 ^ x.exponent : ℚ) = whole.toInt.natAbs := by
          have nonneg : (0 : ℚ) ≤ x.mantissa * 2 ^ x.exponent := by positivity
          rw [Nat.cast_natAbs, Int.cast_abs, ← same]
          split
          · rw [abs_neg, abs_of_nonneg nonneg]
          · rw [abs_of_nonneg nonneg]
        have sign : Binary.signed x.isNegative whole.toInt.natAbs = whole.toInt := by
          rw [size] at same
          rw [← Int.cast_inj (α := ℚ), ← same, Binary.signed]
          split <;> simp
        have integral := (Binary.integral_iff _ _ _).mpr size
        rw [if_pos integral.1, integral.2, sign, toInt64?_toInt]
        rfl

theorem canonicalFloat_eq_or (x : Double) :
    (∃ whole, canonicalFloat x = .int whole) ∨ canonicalFloat x = .float x := by
  cases finite : x.isFinite with
  | false => exact .inr (canonicalFloat_of_not_isFinite finite)
  | true =>
      rw [canonicalFloat_of_isFinite finite]
      split
      · cases StreamQuery.toInt64? _ with
        | none => exact .inr rfl
        | some whole => exact .inl ⟨whole, rfl⟩
      · exact .inr rfl

end Number

end StreamQuery
