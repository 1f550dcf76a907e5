import Mathlib.Algebra.Group.Nat.Even
import StreamQuery.Number.Basic
import StreamQuery.Proofs.Number.Magnitudes
namespace StreamQuery

/-! A ratio is rounded to the nearest number of the format. So what a decimal is rounded to is known
by the rational number that it stands for, whatever its digits and its exponent are. -/

theorem BinaryFormat.even_fraction {format : BinaryFormat} (wide : 0 < format.fractionBits) :
    Even (powTwo format.fractionBits) := by
  rw [powTwo, Nat.pow_eq, Nat.even_pow]
  exact ⟨even_two, wide.ne'⟩

theorem BinaryFormat.roundsTo_block {format : BinaryFormat} (wide : 0 < format.fractionBits)
    {block place : Nat} {scaled : ℚ} (bounded : scaled < 2 * powTwo format.fractionBits)
    (normal : 0 < block → (powTwo format.fractionBits : ℚ) ≤ scaled)
    (near : (place : ℚ) - 1 / 2 ≤ scaled ∧ scaled ≤ place + 1 / 2)
    (tie : scaled = (place : ℚ) - 1 / 2 ∨ scaled = place + 1 / 2 → Even place) :
    format.RoundsTo (scaled * 2 ^ (format.leastExponent + block))
      (block * powTwo format.fractionBits + place) := by
  have unit : (0 : ℚ) < 2 ^ (format.leastExponent + block) := by positivity
  have even (places : Even place) : Even (block * powTwo format.fractionBits + place) :=
    ((BinaryFormat.even_fraction wide).mul_left block).add places
  have inBlock : format.InBlock block place := by
    constructor
    · intro later
      have above : (powTwo format.fractionBits : ℚ) < place + 1 := by
        linarith [normal later, near.2]
      exact Nat.lt_succ_iff.mp (by exact_mod_cast above)
    · have below : (place : ℚ) < 2 * powTwo format.fractionBits + 1 := by linarith [near.1]
      exact Nat.lt_succ_iff.mp (by exact_mod_cast below)
  constructor
  · intro lower next
    rcases inBlock.before next with first | ⟨before, rfl, rfl, previous⟩
    · -- The unit is smaller before the first number of a block, but that number is not exceeded.
      have least := mul_le_mul_of_nonneg_right (normal first.1) unit.le
      have less := format.midpoint_lt_valueOf lower
      rw [next, inBlock.valueOf, first.2] at less
      exact ⟨(less.trans_le least).le, fun same => absurd same (less.trans_le least).ne⟩
    · rw [previous.midpoint inBlock, mul_le_mul_iff_left₀ unit, mul_left_inj' unit.ne']
      push_cast at near tie
      refine ⟨?_, fun same => even (tie (.inl ?_))⟩
      · linarith [near.1]
      · linarith [same]
  · rcases Nat.lt_or_ge place (2 * powTwo format.fractionBits) with inner | last
    · have following : format.InBlock block (place + 1) :=
        ⟨fun later => Nat.le_succ_of_le (inBlock.normal later), inner⟩
      rw [inBlock.midpoint following, mul_le_mul_iff_left₀ unit, mul_left_inj' unit.ne']
      exact ⟨near.2, fun same => even (tie (.inr same))⟩
    · have most : scaled * 2 ^ (format.leastExponent + block) <
          place * 2 ^ (format.leastExponent + block) := by
        refine mul_lt_mul_of_pos_right (bounded.trans_le ?_) unit
        exact_mod_cast last
      have less := format.valueOf_lt_midpoint
        (block * powTwo format.fractionBits + place)
      rw [inBlock.valueOf] at less
      exact ⟨(most.trans less).le, fun same => absurd same (most.trans less).ne⟩

namespace Binary

variable {format : BinaryFormat}

theorem roundHalfEven_near (numerator : Nat) {denominator : Nat} (positive : 0 < denominator) :
    let ratio : ℚ := numerator / denominator
    let rounded := roundHalfEven numerator denominator
    (rounded - 1 / 2 ≤ ratio ∧ ratio ≤ rounded + 1 / 2) ∧
      (ratio = rounded - 1 / 2 ∨ ratio = rounded + 1 / 2 → Even rounded) := by
  intro ratio rounded
  let quotient := numerator / denominator
  let rest := numerator % denominator
  have unit : (0 : ℚ) < denominator := Nat.cast_pos.mpr positive
  have nonneg : (0 : ℚ) ≤ rest := Nat.cast_nonneg _
  have split : ratio = quotient + rest / denominator := by
    have parts : denominator * quotient + rest = numerator := Nat.div_add_mod _ _
    simp only [ratio, ← parts]
    push_cast
    field_simp
  have small : 0 ≤ (rest / denominator : ℚ) := div_nonneg nonneg unit.le
  simp only [rounded, roundHalfEven]
  rcases Nat.lt_trichotomy (2 * rest) denominator with less | equal | greater
  · have half : (rest / denominator : ℚ) < 1 / 2 := by
      have cast : (2 * rest : ℚ) < denominator := by exact_mod_cast less
      rw [div_lt_div_iff₀ unit (by norm_num)]
      linarith
    rw [Nat.compare_eq_lt.mpr less]
    refine ⟨⟨?_, ?_⟩, ?_⟩
    · linarith
    · linarith
    · rintro (same | same) <;> linarith
  · have half : (rest / denominator : ℚ) = 1 / 2 := by
      have cast : (2 * rest : ℚ) = denominator := by exact_mod_cast equal
      rw [div_eq_div_iff unit.ne' (by norm_num)]
      linarith
    rw [Nat.compare_eq_eq.mpr equal]
    rcases Nat.mod_two_eq_zero_or_one quotient with even | odd
    · have kept : quotient + quotient % 2 = quotient := by omega
      simp only [quotient] at kept
      rw [kept]
      refine ⟨⟨?_, ?_⟩, fun _ => Nat.even_iff.mpr even⟩ <;> linarith
    · have next : quotient + quotient % 2 = quotient + 1 := by omega
      simp only [quotient] at next
      rw [next]
      push_cast
      refine ⟨⟨?_, ?_⟩, fun _ => Nat.even_iff.mpr ?_⟩
      · linarith
      · linarith
      · omega
  · have half : (1 / 2 : ℚ) < rest / denominator := by
      have cast : (denominator : ℚ) < 2 * rest := by exact_mod_cast greater
      rw [div_lt_div_iff₀ (by norm_num) unit]
      linarith
    have whole : (rest / denominator : ℚ) < 1 := by
      rw [div_lt_one unit]
      exact_mod_cast Nat.mod_lt numerator positive
    rw [Nat.compare_eq_gt.mpr greater]
    push_cast
    refine ⟨⟨?_, ?_⟩, ?_⟩
    · linarith
    · linarith
    · rintro (same | same) <;> linarith

theorem log2_bounds {value : Nat} (positive : 0 < value) :
    (2 : ℚ) ^ (value.log2 : Int) ≤ value ∧ (value : ℚ) < 2 ^ ((value.log2 : Int) + 1) := by
  have lower : 2 ^ value.log2 ≤ value := Nat.log2_self_le positive.ne'
  have upper : value < 2 ^ (value.log2 + 1) := Nat.lt_log2_self
  constructor
  · rw [zpow_natCast]
    exact_mod_cast lower
  · rw [← Nat.cast_succ, zpow_natCast]
    exact_mod_cast upper

theorem ratioLog2_bounds {numerator denominator : Nat} (positive : 0 < numerator)
    (positiveDenominator : 0 < denominator) :
    let ratio : ℚ := numerator / denominator
    (2 : ℚ) ^ ratioLog2 numerator denominator ≤ ratio ∧
      ratio < 2 ^ (ratioLog2 numerator denominator + 1) := by
  intro ratio
  let estimate : Int := (numerator.log2 : Int) - denominator.log2
  have unit : (0 : ℚ) < denominator := Nat.cast_pos.mpr positiveDenominator
  have ofNumerator := log2_bounds positive
  have ofDenominator := log2_bounds positiveDenominator
  have lower : (2 : ℚ) ^ (estimate - 1) ≤ ratio := by
    rw [le_div_iff₀ unit]
    calc (2 : ℚ) ^ (estimate - 1) * denominator
        ≤ 2 ^ (estimate - 1) * 2 ^ ((denominator.log2 : Int) + 1) :=
          mul_le_mul_of_nonneg_left ofDenominator.2.le (by positivity)
      _ = 2 ^ (numerator.log2 : Int) := by
          rw [← zpow_add₀ (by norm_num)]
          congr 1
          omega
      _ ≤ numerator := ofNumerator.1
  have upper : ratio < 2 ^ (estimate + 1) := by
    rw [div_lt_iff₀ unit]
    calc (numerator : ℚ) < 2 ^ ((numerator.log2 : Int) + 1) := ofNumerator.2
      _ = 2 ^ (estimate + 1) * 2 ^ (denominator.log2 : Int) := by
          rw [← zpow_add₀ (by norm_num)]
          congr 1
          omega
      _ ≤ 2 ^ (estimate + 1) * denominator :=
          mul_le_mul_of_nonneg_left ofDenominator.1 (by positivity)
  have decides : denominator * powTwo estimate.toNat ≤ numerator * powTwo (-estimate).toNat ↔
      (2 : ℚ) ^ estimate ≤ ratio := by
    rw [zpow_eq_div, div_le_div_iff₀ (by positivity) unit, ← powTwo_cast, ← powTwo_cast]
    norm_cast
    rw [Nat.mul_comm denominator]
  simp only [ratioLog2]
  by_cases reached : (2 : ℚ) ^ estimate ≤ ratio
  · rw [if_pos (decides.mpr reached)]
    exact ⟨reached, upper⟩
  · rw [if_neg (mt decides.mp reached)]
    refine ⟨lower, ?_⟩
    rw [Int.sub_add_cancel]
    exact lt_of_not_ge reached

/-- The magnitude before it is cut at infinity is the one that the ratio rounds to. -/
theorem ofRatio_rounds (wide : 0 < format.fractionBits) (negative : Bool)
    {numerator denominator : Nat} (positive : 0 < numerator)
    (positiveDenominator : 0 < denominator) :
    ∃ magnitude, format.RoundsTo (numerator / denominator) magnitude ∧
      (ofRatio negative numerator denominator : Binary format) =
        ofMagnitude negative (min magnitude format.infinity) := by
  let exponent :=
    max (ratioLog2 numerator denominator - format.fractionBits) format.leastExponent
  let block := (exponent - format.leastExponent).toNat
  let place :=
    roundHalfEven (numerator * powTwo (-exponent).toNat) (denominator * powTwo exponent.toNat)
  let scaled : ℚ := numerator / denominator / 2 ^ exponent
  refine ⟨block * powTwo format.fractionBits + place, ?_, by
    rw [ofRatio, if_neg positive.ne']⟩
  have unit : (0 : ℚ) < 2 ^ exponent := by positivity
  have exponents : format.leastExponent + block = exponent := by
    simp only [block, exponent]
    omega
  have ratio : (numerator / denominator : ℚ) = scaled * 2 ^ exponent :=
    (div_mul_cancel₀ _ unit.ne').symm
  have bounds := ratioLog2_bounds positive positiveDenominator
  have fraction : (powTwo format.fractionBits : ℚ) = 2 ^ (format.fractionBits : Int) := by
    rw [powTwo_cast, zpow_natCast]
  have bounded : scaled < 2 * powTwo format.fractionBits := by
    rw [div_lt_iff₀ unit, fraction, mul_assoc, ← zpow_add₀ (by norm_num),
      ← zpow_one_add₀ (by norm_num)]
    refine bounds.2.trans_le (zpow_le_zpow_right₀ (by norm_num) ?_)
    simp only [exponent]
    omega
  have normal : 0 < block → (powTwo format.fractionBits : ℚ) ≤ scaled := by
    intro later
    rw [le_div_iff₀ unit, fraction, ← zpow_add₀ (by norm_num)]
    refine (zpow_le_zpow_right₀ (by norm_num) ?_).trans bounds.1
    simp only [block, exponent] at later ⊢
    omega
  have near : (place - 1 / 2 ≤ scaled ∧ scaled ≤ place + 1 / 2) ∧
      (scaled = place - 1 / 2 ∨ scaled = place + 1 / 2 → Even place) := by
    have rounds := roundHalfEven_near (numerator * powTwo (-exponent).toNat)
      (Nat.mul_pos positiveDenominator (BinaryFormat.powTwo_pos exponent.toNat))
    have same : ((numerator * powTwo (-exponent).toNat : Nat) : ℚ) /
        ((denominator * powTwo exponent.toNat : Nat) : ℚ) = scaled := by
      simp only [scaled]
      rw [zpow_eq_div]
      push_cast
      rw [powTwo_cast, powTwo_cast]
      field_simp
    rw [same] at rounds
    exact rounds
  rw [ratio, ← exponents]
  exact BinaryFormat.roundsTo_block wide bounded normal near.1 near.2

/-! Beyond four hundred places before or after the point the result is known without a power of ten.
-/

theorem toDigits_bounds {digits : Nat} (positive : 0 < digits) :
    (10 : ℚ) ^ (((Nat.toDigits 10 digits).length : Int) - 1) ≤ digits ∧
      (digits : ℚ) < 10 ^ ((Nat.toDigits 10 digits).length : Int) := by
  obtain ⟨places, length⟩ : ∃ places, (Nat.toDigits 10 digits).length = places + 1 :=
    ⟨_, (Nat.succ_pred_eq_of_pos Nat.length_toDigits_pos).symm⟩
  have upper : digits < 10 ^ (places + 1) :=
    (Nat.length_toDigits_le_iff (by decide) (Nat.succ_pos places)).mp length.le
  have lower : 10 ^ places ≤ digits := by
    rcases Nat.eq_zero_or_pos places with rfl | more
    · exact positive
    · rw [← Nat.not_lt, ← Nat.length_toDigits_le_iff (by decide) more, length]
      exact Nat.not_succ_le_self places
  rw [length]
  constructor
  · rw [Int.natCast_succ, Int.add_sub_cancel, zpow_natCast]
    exact_mod_cast lower
  · rw [zpow_natCast]
    exact_mod_cast upper

theorem valueOf_infinity_double :
    BinaryFormat.double.valueOf BinaryFormat.double.infinity = 2 ^ 1024 := by
  have last : BinaryFormat.double.InBlock 2045 (2 * powTwo 52) := by
    constructor
    · intro _
      exact Nat.le_mul_of_pos_left _ (by decide)
    · exact le_rfl
  have place : BinaryFormat.double.infinity = 2045 * powTwo 52 + 2 * powTwo 52 := by decide
  have least : BinaryFormat.double.leastExponent = -1074 := by decide
  have unit : (2 ^ (-1074 + (2045 : Nat) : Int) : ℚ) = 2 ^ 971 := zpow_natCast 2 971
  rw [place, last.valueOf, least, unit, Nat.cast_mul, powTwo_cast, Nat.cast_ofNat, ← pow_succ',
    ← pow_add]

theorem midpoint_zero_double : BinaryFormat.double.midpoint 0 = 2 ^ (-1075 : Int) := by
  have first : BinaryFormat.double.InBlock 0 1 := by
    constructor
    · intro later
      cases later
    · decide
  have value := first.valueOf
  have least : BinaryFormat.double.leastExponent = -1074 := by decide
  rw [Nat.zero_mul, Nat.zero_add, least] at value
  have half : (2 ^ (-1074 : Int) : ℚ) = 2 ^ (-1075 : Int) * 2 :=
    zpow_add_one₀ (by norm_num) (-1075)
  rw [BinaryFormat.midpoint, BinaryFormat.valueOf_zero, value, Nat.cast_one, one_mul,
    Nat.cast_zero, add_zero, zero_add, half, mul_div_cancel_right₀ _ (by norm_num)]

theorem two_zpow_le_ten_zpow : (2 ^ (1200 : Int) : ℚ) ≤ 10 ^ (400 : Int) := by
  calc (2 ^ (1200 : Int) : ℚ) = (2 ^ (3 : Int)) ^ (400 : Int) := zpow_mul 2 3 400
    _ ≤ 10 ^ (400 : Int) := zpow_le_zpow_left₀ (by decide) (by norm_num) (by norm_num)

theorem ofDecimal_rounds (negative : Bool) {digits : Nat} (positive : 0 < digits) (exponent : Int) :
    ∃ magnitude, BinaryFormat.double.RoundsTo (digits * 10 ^ exponent) magnitude ∧
      (ofDecimal negative digits exponent : Double) =
        ofMagnitude negative (min magnitude BinaryFormat.double.infinity) := by
  have numerator : 0 < digits * powTen exponent.toNat :=
    Nat.mul_pos positive (Nat.pow_pos (by decide))
  have denominator : 0 < powTen (-exponent).toNat := Nat.pow_pos (by decide)
  have value : ((digits * powTen exponent.toNat : Nat) : ℚ) / (powTen (-exponent).toNat : Nat) =
      digits * 10 ^ exponent := by
    rw [zpow_eq_div]
    push_cast
    rw [powTen_cast, powTen_cast, mul_div_assoc]
  rcases @ofRatio_rounds .double (by decide) negative _ _ numerator denominator with
    ⟨magnitude, rounds, result⟩
  rw [value] at rounds
  refine ⟨magnitude, rounds, ?_⟩
  have bounds := toDigits_bounds positive
  have unit : (0 : ℚ) < 10 ^ exponent := by positivity
  simp only [ofDecimal]
  generalize ((Nat.toDigits 10 digits).length : Int) = length at *
  split
  · next small =>
      have short : length + exponent < -400 := small.resolve_left positive.ne'
      have below : (digits * 10 ^ exponent : ℚ) ≤ 2 ^ (-1075 : Int) := by
        calc (digits * 10 ^ exponent : ℚ) ≤ 10 ^ length * 10 ^ exponent :=
              mul_le_mul_of_nonneg_right bounds.2.le unit.le
          _ = 10 ^ (length + exponent) := (zpow_add₀ (by norm_num) _ _).symm
          _ ≤ 10 ^ (-400 : Int) := zpow_le_zpow_right₀ (by norm_num) short.le
          _ = (10 ^ (400 : Int))⁻¹ := zpow_neg 10 400
          _ ≤ (2 ^ (1200 : Int))⁻¹ := inv_anti₀ (by positivity) two_zpow_le_ten_zpow
          _ = 2 ^ (-1200 : Int) := (zpow_neg 2 1200).symm
          _ ≤ 2 ^ (-1075 : Int) := zpow_le_zpow_right₀ (by norm_num) (by decide)
      have nothing : BinaryFormat.double.RoundsTo (digits * 10 ^ exponent) 0 := by
        refine ⟨fun lower next => (nomatch next), ?_, fun _ => Even.zero⟩
        rwa [midpoint_zero_double]
      rw [rounds.unique nothing]
      rfl
  · split
    · next long =>
        have above : (2 ^ 1024 : ℚ) ≤ digits * 10 ^ exponent := by
          calc (2 ^ 1024 : ℚ) = 2 ^ (1024 : Int) := (zpow_natCast 2 1024).symm
            _ ≤ 2 ^ (1200 : Int) := zpow_le_zpow_right₀ (by norm_num) (by decide)
            _ ≤ 10 ^ (400 : Int) := two_zpow_le_ten_zpow
            _ ≤ 10 ^ (length - 1 + exponent) := zpow_le_zpow_right₀ (by norm_num) (by omega)
            _ = 10 ^ (length - 1) * 10 ^ exponent := zpow_add₀ (by norm_num) _ _
            _ ≤ digits * 10 ^ exponent := mul_le_mul_of_nonneg_right bounds.1 unit.le
        rw [← valueOf_infinity_double] at above
        rw [Nat.min_eq_right ((BinaryFormat.roundsTo_valueOf _).mono rounds above)]
        rfl
    · exact result

/-! Sign and magnitude. -/

theorem infinity_lt_signWeight (format : BinaryFormat) : format.infinity < signWeight format := by
  have places := BinaryFormat.powTwo_pos format.exponentBits
  have whole : signWeight format = powTwo format.exponentBits * powTwo format.fractionBits := by
    simp only [signWeight, powTwo, Nat.pow_eq, Nat.pow_add, Nat.mul_comm]
  rw [whole, BinaryFormat.infinity]
  exact Nat.mul_lt_mul_of_pos_right (by omega) (BinaryFormat.powTwo_pos _)

variable {magnitude : Nat}

theorem toNat_ofMagnitude (negative : Bool) (bounded : magnitude < signWeight format) :
    (ofMagnitude negative magnitude : Binary format).bits.toNat =
      (if negative then signWeight format else 0) + magnitude := by
  have width : 2 ^ format.width = 2 * signWeight format := by
    simp only [signWeight, powTwo, BinaryFormat.width, Nat.pow_eq]
    omega
  rw [ofMagnitude, BitVec.toNat_ofNat, width]
  apply Nat.mod_eq_of_lt
  split <;> omega

theorem magnitude_ofMagnitude (negative : Bool) (bounded : magnitude < signWeight format) :
    (ofMagnitude negative magnitude : Binary format).magnitude = magnitude := by
  rw [Binary.magnitude, toNat_ofMagnitude negative bounded]
  cases negative
  · rw [if_neg Bool.false_ne_true, Nat.zero_add, Nat.mod_eq_of_lt bounded]
  · rw [if_pos rfl, Nat.add_mod_left, Nat.mod_eq_of_lt bounded]

theorem isNegative_ofMagnitude (negative : Bool) (bounded : magnitude < signWeight format) :
    (ofMagnitude negative magnitude : Binary format).isNegative = negative := by
  rw [isNegative, toNat_ofMagnitude negative bounded]
  cases negative
  · simpa using bounded
  · simp

end Binary

/-! What a decimal is rounded to. -/

namespace Decimal

theorem value_eq_zero {x : Decimal} : x.value = 0 ↔ x.digits = 0 := by
  simp [value, zpow_ne_zero]

theorem abs_value (x : Decimal) : |x.value| = x.digits.natAbs * 10 ^ (-x.scale) := by
  rw [value, abs_mul, abs_of_pos (by positivity : (0 : ℚ) < 10 ^ (-x.scale)), Nat.cast_natAbs,
    Int.cast_abs]

theorem digits_neg_iff {x : Decimal} : x.digits < 0 ↔ x.value < 0 := by
  have unit : (0 : ℚ) < 10 ^ (-x.scale) := by positivity
  rw [value, ← not_le, ← not_le, mul_nonneg_iff_of_pos_right unit, Int.cast_nonneg_iff]

theorem toDouble_rounds {x : Decimal} (nonzero : x.value ≠ 0) :
    ∃ magnitude, BinaryFormat.double.RoundsTo |x.value| magnitude ∧
      x.toDouble =
        Binary.ofMagnitude (x.value < 0) (min magnitude BinaryFormat.double.infinity) := by
  have positive : 0 < x.digits.natAbs := Int.natAbs_pos.mpr (mt value_eq_zero.mpr nonzero)
  have signs : decide (x.digits < 0) = decide (x.value < 0) := decide_eq_decide.mpr digits_neg_iff
  rw [abs_value, toDouble, ← signs]
  exact Binary.ofDecimal_rounds _ positive _

theorem toDouble_of_value_eq_zero {x : Decimal} (zero : x.value = 0) :
    x.toDouble = Binary.zero false := by
  rw [toDouble, value_eq_zero.mp zero]
  simp [Binary.ofDecimal]

theorem toDouble_congr {x y : Decimal} (same : x.value = y.value) : x.toDouble = y.toDouble := by
  by_cases zero : x.value = 0
  · rw [toDouble_of_value_eq_zero zero, toDouble_of_value_eq_zero (same ▸ zero)]
  · rcases toDouble_rounds zero with ⟨first, ofFirst, resultFirst⟩
    rcases toDouble_rounds (same ▸ zero : y.value ≠ 0) with ⟨second, ofSecond, resultSecond⟩
    rw [same] at ofFirst
    rw [resultFirst, resultSecond, ofFirst.unique ofSecond, same]

end Decimal

end StreamQuery
