import Mathlib.Tactic.LinearCombination
import StreamQuery.Number.Shortest
import StreamQuery.Proofs.Number.Rounding
namespace StreamQuery

/-! The shortest digits of a number round to the number. -/

namespace DecimalDigits

def value (decimal : DecimalDigits) : ℚ :=
  decimal.digits * 10 ^ decimal.exponent

theorem value_stripZeros (fuel : Nat) (decimal : DecimalDigits) :
    (stripZeros fuel decimal).value = decimal.value := by
  induction fuel generalizing decimal with
  | zero => rfl
  | succ fuel induction =>
      obtain ⟨digits, exponent⟩ := decimal
      simp only [stripZeros]
      split
      · next strip =>
          have tenfold : (digits : ℚ) = (digits / 10 : Nat) * 10 := by
            exact_mod_cast (Nat.div_mul_cancel (Nat.dvd_of_mod_eq_zero strip.1)).symm
          rw [induction, value, value, zpow_add_one₀ (by norm_num), tenfold]
          ring
      · rfl

theorem value_exact (mantissa : Nat) (exponent : Int) :
    (exact mantissa exponent).value = mantissa * 2 ^ exponent := by
  simp only [value, exact]
  rcases Int.le_total 0 exponent with positive | negative
  · obtain ⟨places, rfl⟩ := Int.eq_ofNat_of_zero_le positive
    have least : min (places : Int) 0 = 0 := by omega
    rw [least]
    simp [powTwo]
  · obtain ⟨places, same⟩ := Int.eq_ofNat_of_zero_le (Int.neg_nonneg_of_nonpos negative)
    obtain rfl : exponent = -places := by omega
    have least : min (-places : Int) 0 = -places := by omega
    have ten : (10 : ℚ) ^ places = 5 ^ places * 2 ^ places := by
      rw [← mul_pow]
      norm_num
    have five : (5 ^ places : ℚ) ≠ 0 := by positivity
    rw [least]
    simp only [Int.neg_neg, Int.toNat_natCast, Int.toNat_neg_natCast, powTwo, zpow_neg,
      zpow_natCast,
      Nat.pow_eq, Nat.pow_zero, Nat.mul_one, ten]
    push_cast
    field_simp

/-! The grid, in units of the last place of the mantissa. -/

variable {mantissa : Nat} {exponent : Int} {narrow : Bool} {grid : Int}

/-- The point lies between the bounds that `onGrid?` sets, on one of them only for an even mantissa.
-/
def Inside (mantissa : Nat) (exponent : Int) (narrow : Bool) (value : ℚ) : Prop :=
  let lowest : ℚ := (4 * mantissa - if narrow then 1 else 2) * 2 ^ (exponent - 2)
  let highest : ℚ := (4 * mantissa + 2) * 2 ^ (exponent - 2)
  (lowest ≤ value ∧ value ≤ highest) ∧ (lowest = value ∨ value = highest → Even mantissa)

theorem scaled_unit (exponent grid : Int) :
    ((powTwo (exponent - 2).toNat * powTen (-grid).toNat : Nat) : ℚ) =
      2 ^ (exponent - 2) * (powTen (-grid).toNat * powTwo (2 - exponent).toNat : Nat) := by
  have negated : -(exponent - 2) = 2 - exponent := by omega
  rw [zpow_eq_div 2 (exponent - 2), negated]
  push_cast
  rw [powTwo_cast, powTwo_cast, powTen_cast]
  field_simp

theorem scaled_step (exponent grid : Int) :
    ((powTen grid.toNat * powTwo (2 - exponent).toNat : Nat) : ℚ) =
      10 ^ grid * (powTen (-grid).toNat * powTwo (2 - exponent).toNat : Nat) := by
  rw [zpow_eq_div 10 grid]
  push_cast
  rw [powTen_cast, powTen_cast]
  field_simp

def passes (mantissa : Nat) (exponent : Int) (narrow : Bool) (grid : Int) (point : Nat) : Bool :=
  let unit := powTwo (exponent - 2).toNat * powTen (-grid).toNat
  let step := powTen grid.toNat * powTwo (2 - exponent).toNat
  let lowest := (4 * mantissa - if narrow then 1 else 2) * unit
  let highest := (4 * mantissa + 2) * unit
  if mantissa % 2 = 0 then lowest ≤ point * step && point * step ≤ highest
  else lowest < point * step && point * step < highest

theorem passes_of_onGrid? {point : Nat}
    (found : onGrid? mantissa exponent narrow grid = some point) :
    passes mantissa exponent narrow grid point := by
  simp only [onGrid?] at found
  split at found
  · next below above =>
      split at found <;> cases found
      · exact below
      · exact above
  · next below _ =>
      cases found
      exact below
  · next _ above =>
      cases found
      exact above
  · cases found

theorem inside_of_onGrid? (positive : 0 < mantissa) {point : Nat}
    (found : onGrid? mantissa exponent narrow grid = some point) :
    Inside mantissa exponent narrow (point * 10 ^ grid) := by
  have passed := passes_of_onGrid? found
  let scale := powTen (-grid).toNat * powTwo (2 - exponent).toNat
  have unit : (0 : ℚ) < scale :=
    Nat.cast_pos.mpr (Nat.mul_pos (Nat.pow_pos (by decide)) (BinaryFormat.powTwo_pos _))
  have least : ((4 * mantissa - if narrow then 1 else 2 : Nat) : ℚ) =
      4 * mantissa - if narrow then 1 else 2 := by
    rw [Nat.cast_sub (by split <;> omega)]
    split <;> push_cast <;> rfl
  have lowest : (((4 * mantissa - if narrow then 1 else 2) *
      (powTwo (exponent - 2).toNat * powTen (-grid).toNat) : Nat) : ℚ) =
        (4 * mantissa - if narrow then 1 else 2) * 2 ^ (exponent - 2) * scale := by
    rw [Nat.cast_mul, least, scaled_unit, mul_assoc]
  have most : ((4 * mantissa + 2 : Nat) : ℚ) = 4 * mantissa + 2 := by push_cast; rfl
  have highest : (((4 * mantissa + 2) *
      (powTwo (exponent - 2).toNat * powTen (-grid).toNat) : Nat) : ℚ) =
        (4 * mantissa + 2) * 2 ^ (exponent - 2) * scale := by
    rw [Nat.cast_mul, most, scaled_unit, mul_assoc]
  have value : ((point * (powTen grid.toNat * powTwo (2 - exponent).toNat) : Nat) : ℚ) =
      point * 10 ^ grid * scale := by
    rw [Nat.cast_mul, scaled_step, mul_assoc]
  simp only [passes] at passed
  split at passed
  · next even =>
      simp only [Bool.and_eq_true, decide_eq_true_eq] at passed
      rw [← Nat.cast_le (α := ℚ), ← Nat.cast_le (α := ℚ), lowest, highest, value,
        mul_le_mul_iff_left₀ unit, mul_le_mul_iff_left₀ unit] at passed
      exact ⟨passed, fun _ => Nat.even_iff.mpr even⟩
  · simp only [Bool.and_eq_true, decide_eq_true_eq] at passed
    rw [← Nat.cast_lt (α := ℚ), ← Nat.cast_lt (α := ℚ), lowest, highest, value,
      mul_lt_mul_iff_left₀ unit, mul_lt_mul_iff_left₀ unit] at passed
    refine ⟨⟨passed.1.le, passed.2.le⟩, ?_⟩
    rintro (same | same)
    · exact absurd same passed.1.ne
    · exact absurd same passed.2.ne

theorem inside_exact (mantissa : Nat) (exponent : Int) (narrow : Bool) :
    Inside mantissa exponent narrow (exact mantissa exponent).value := by
  have unit : (0 : ℚ) < 2 ^ (exponent - 2) := by positivity
  have quarters : (exact mantissa exponent).value = 4 * mantissa * 2 ^ (exponent - 2) := by
    rw [value_exact, zpow_sub₀ (by norm_num)]
    ring
  have below : (4 * mantissa - if narrow then 1 else 2 : ℚ) * 2 ^ (exponent - 2) <
      4 * mantissa * 2 ^ (exponent - 2) := by
    refine mul_lt_mul_of_pos_right ?_ unit
    split <;> linarith
  have above : (4 * mantissa * 2 ^ (exponent - 2) : ℚ) < (4 * mantissa + 2) * 2 ^ (exponent - 2) :=
    mul_lt_mul_of_pos_right (by linarith) unit
  rw [quarters]
  refine ⟨⟨below.le, above.le⟩, ?_⟩
  rintro (same | same)
  · exact absurd same below.ne
  · exact absurd same above.ne

def attempt (mantissa : Nat) (exponent : Int) (narrow : Bool) (count : Nat) :
    Option DecimalDigits :=
  let grid := integerPlaces mantissa exponent - (count + 1)
  (onGrid? mantissa exponent narrow grid).map fun point => ⟨point, grid⟩

theorem value_shortest (positive : 0 < mantissa) (exponent : Int) (narrow : Bool) :
    (shortest mantissa exponent narrow).value =
      (((List.range mostDigits).findSome? (attempt mantissa exponent narrow)).getD
        (exact mantissa exponent)).value := by
  rw [shortest, if_neg positive.ne']
  exact value_stripZeros _ _

theorem inside_shortest (positive : 0 < mantissa) (exponent : Int) (narrow : Bool) :
    Inside mantissa exponent narrow (shortest mantissa exponent narrow).value := by
  rw [value_shortest positive]
  cases found : (List.range mostDigits).findSome? (attempt mantissa exponent narrow) with
  | none => exact inside_exact mantissa exponent narrow
  | some decimal =>
      rcases List.exists_of_findSome?_eq_some found with ⟨count, _, attempted⟩
      rcases Option.map_eq_some_iff.mp attempted with ⟨point, onGrid, rfl⟩
      exact inside_of_onGrid? positive onGrid

end DecimalDigits

/-! The bounds on the grid are the halfway points around the number. -/

namespace BinaryFormat

/-- The number before is half as far away as the one after. -/
def narrowAt (format : BinaryFormat) (magnitude : Nat) : Bool :=
  magnitude % powTwo format.fractionBits == 0 && 1 < magnitude / powTwo format.fractionBits

/-- The value that the shortest digits of the number denote. -/
def shortestOf (format : BinaryFormat) (magnitude : Nat) : ℚ :=
  (DecimalDigits.shortest (format.mantissaOf magnitude) (format.exponentOf magnitude)
    (format.narrowAt magnitude)).value

variable {format : BinaryFormat} {magnitude : Nat}

theorem mantissaOf_pos (format : BinaryFormat) {magnitude : Nat} (positive : 0 < magnitude) :
    0 < format.mantissaOf magnitude := by
  have unit := powTwo_pos format.fractionBits
  simp only [mantissaOf]
  split <;> omega

theorem even_mantissaOf (wide : 0 < format.fractionBits) :
    Even (format.mantissaOf magnitude) ↔ Even magnitude := by
  have halfUnit := even_fraction wide
  have parts := Nat.div_add_mod magnitude (powTwo format.fractionBits)
  simp only [mantissaOf]
  split
  · rfl
  · conv_rhs => rw [← parts]
    rw [Nat.even_add, Nat.even_add, iff_true_left halfUnit,
      iff_true_left (halfUnit.mul_right _)]

/-! Halfway to the next number and to the one before, by mantissa and exponent. -/

theorem midpoint_eq (magnitude : Nat) :
    format.midpoint magnitude =
      (4 * format.mantissaOf magnitude + 2) * 2 ^ (format.exponentOf magnitude - 2) := by
  rcases exists_block format magnitude with ⟨block, place, inBlock, inner, rfl⟩
  have following : format.InBlock block (place + 1) :=
    ⟨fun later => Nat.le_succ_of_le (inBlock.normal later), inner⟩
  rw [inBlock.midpoint following, (inBlock.fields inner).1, (inBlock.fields inner).2,
    zpow_sub₀ (by norm_num)]
  ring

theorem narrowAt_block {block place : Nat} (inner : place < 2 * powTwo format.fractionBits)
    (inBlock : format.InBlock block place) :
    format.narrowAt (block * powTwo format.fractionBits + place) ↔
      0 < block ∧ place = powTwo format.fractionBits := by
  have normal := inBlock.normal
  have positive := powTwo_pos format.fractionBits
  simp only [narrowAt, Bool.and_eq_true, beq_iff_eq, decide_eq_true_eq]
  generalize powTwo format.fractionBits = unit at *
  rcases Nat.lt_or_ge place unit with small | normal
  · obtain rfl : block = 0 := by omega
    simp [Nat.div_eq_of_lt small]
  · obtain ⟨rest, rfl⟩ := Nat.exists_eq_add_of_le normal
    have below : rest < unit := by omega
    have whole : block * unit + (unit + rest) = rest + (block + 1) * unit := by ring
    rw [whole, Nat.add_mul_mod_self_right, Nat.mod_eq_of_lt below,
      Nat.add_mul_div_right _ _ positive, Nat.div_eq_of_lt below]
    omega

theorem midpoint_before (magnitude : Nat) :
    format.midpoint magnitude =
      (4 * format.mantissaOf (magnitude + 1) - if format.narrowAt (magnitude + 1) then 1 else 2) *
        2 ^ (format.exponentOf (magnitude + 1) - 2) := by
  rcases exists_block format (magnitude + 1) with ⟨block, place, inBlock, inner, next⟩
  have fields := inBlock.fields inner
  have narrow := narrowAt_block inner inBlock
  rw [next, fields.1, fields.2, zpow_sub₀ (by norm_num)]
  rcases inBlock.before next with first | ⟨before, rfl, rfl, previous⟩
  · -- The number before is the last of the block before, where the unit is half as large.
    rw [if_pos (narrow.mpr first)]
    obtain ⟨earlier, rfl⟩ : ∃ earlier, block = earlier + 1 := ⟨block - 1, by omega⟩
    obtain ⟨last, unit⟩ : ∃ last, 2 * powTwo format.fractionBits = last + 1 :=
      ⟨2 * powTwo format.fractionBits - 1, by omega⟩
    have previous : format.InBlock earlier last := ⟨fun _ => by omega, by omega⟩
    have ended : format.InBlock earlier (last + 1) := ⟨fun _ => by omega, by omega⟩
    obtain rfl : magnitude = earlier * powTwo format.fractionBits + last := by
      have whole := (@InBlock.next format earlier).2
      omega
    have places : (last : ℚ) + 1 = 2 * powTwo format.fractionBits := by exact_mod_cast unit.symm
    rw [previous.midpoint ended, first.2, Nat.cast_succ, ← add_assoc, zpow_add_one₀ (by norm_num)]
    linear_combination (2 ^ (format.leastExponent + earlier) : ℚ) * places
  · have wide : ¬format.narrowAt (block * powTwo format.fractionBits + (before + 1)) := by
      rw [narrow]
      rintro ⟨later, same⟩
      have normal := previous.normal later
      omega
    rw [previous.midpoint inBlock, if_neg wide]
    push_cast
    ring

theorem roundsTo_shortestOf (wide : 0 < format.fractionBits) (positive : 0 < magnitude) :
    format.RoundsTo (format.shortestOf magnitude) magnitude := by
  have inside := DecimalDigits.inside_shortest (format.mantissaOf_pos positive)
    (format.exponentOf magnitude) (format.narrowAt magnitude)
  constructor
  · rintro lower rfl
    rw [midpoint_before]
    exact ⟨inside.1.1, fun same => (even_mantissaOf wide).mp (inside.2 (.inl same))⟩
  · rw [midpoint_eq]
    exact ⟨inside.1.2, fun same => (even_mantissaOf wide).mp (inside.2 (.inr same))⟩

theorem shortestOf_zero : format.shortestOf 0 = 0 := by
  simp [shortestOf, mantissaOf, powTwo_pos, DecimalDigits.shortest, DecimalDigits.value]

theorem RoundsTo.pos {value : ℚ} (rounds : format.RoundsTo value magnitude)
    (positive : 0 < magnitude) : 0 < value := by
  obtain ⟨lower, rfl⟩ : ∃ lower, magnitude = lower + 1 := ⟨magnitude - 1, by omega⟩
  have above := (rounds.above lower rfl).1
  have least := format.valueOf_lt_midpoint lower
  have nonneg := format.valueOf_nonneg lower
  linarith

theorem strictMono_shortestOf (wide : 0 < format.fractionBits) : StrictMono format.shortestOf := by
  intro lower upper less
  have ofUpper := roundsTo_shortestOf wide (Nat.zero_lt_of_lt less)
  rcases Nat.eq_zero_or_pos lower with rfl | positive
  · rw [shortestOf_zero]
    exact ofUpper.pos less
  · exact (roundsTo_shortestOf wide positive).lt ofUpper less

end BinaryFormat

/-! Small integers are written as themselves. -/

namespace DecimalDigits

variable {mantissa whole : Nat} {exponent : Int}

theorem onGrid?_zero (positive : 0 < mantissa) (same : (mantissa * 2 ^ exponent : ℚ) = whole)
    (narrow : Bool) : onGrid? mantissa exponent narrow 0 = some whole := by
  have exactly : 4 * mantissa * (powTwo (exponent - 2).toNat * powTen (-0 : Int).toNat) =
      whole * (powTen (0 : Int).toNat * powTwo (2 - exponent).toNat) := by
    have ofUnit := scaled_unit exponent 0
    have ofStep := scaled_step exponent 0
    rw [← Nat.cast_inj (R := ℚ), Nat.cast_mul, Nat.cast_mul whole, ofUnit, ofStep, ← same,
      zpow_sub₀ (by norm_num), zpow_zero]
    push_cast
    ring
  have units : 0 < powTwo (exponent - 2).toNat * powTen (-0 : Int).toNat :=
    Nat.mul_pos (BinaryFormat.powTwo_pos _) (Nat.pow_pos (by decide))
  have steps : 0 < powTen (0 : Int).toNat * powTwo (2 - exponent).toNat :=
    Nat.mul_pos (Nat.pow_pos (by decide)) (BinaryFormat.powTwo_pos _)
  simp only [onGrid?]
  generalize powTwo (exponent - 2).toNat * powTen (-0 : Int).toNat = unit at *
  generalize powTen (0 : Int).toNat * powTwo (2 - exponent).toNat = step at *
  have lowest : (4 * mantissa - if narrow then 1 else 2) * unit < whole * step := by
    rw [← exactly]
    refine Nat.mul_lt_mul_of_pos_right ?_ units
    split <;> omega
  have highest : whole * step < (4 * mantissa + 2) * unit := by
    rw [← exactly]
    exact Nat.mul_lt_mul_of_pos_right (by omega) units
  rw [exactly, Nat.mul_div_cancel _ steps, Nat.mul_mod_left]
  simp only [lowest, lowest.le, highest, highest.le, decide_true, Bool.and_self, ite_self]
  split
  · simp [steps]
  · rfl
  · next wrong _ => cases wrong
  · next wrong _ => cases wrong

theorem integerPlaces_bounds (positive : 0 < mantissa)
    (same : (mantissa * 2 ^ exponent : ℚ) = whole)
    (bounded : whole ≤ 2 ^ 53) :
    1 ≤ integerPlaces mantissa exponent ∧ integerPlaces mantissa exponent ≤ 17 := by
  have present : (1 : ℚ) ≤ whole := by
    have nonzero : (0 : ℚ) < whole := by
      rw [← same]
      positivity
    exact_mod_cast Nat.cast_pos.mp nonzero
  have bounds := Binary.log2_bounds positive
  have logarithm :
      0 ≤ (mantissa.log2 : Int) + exponent ∧ (mantissa.log2 : Int) + exponent ≤ 53 := by
    have unit : (0 : ℚ) < 2 ^ exponent := by positivity
    constructor
    · have above : (2 ^ (0 : Int) : ℚ) < 2 ^ ((mantissa.log2 : Int) + 1 + exponent) := by
        rw [zpow_add₀ (by norm_num), zpow_zero]
        refine (present.trans same.ge).trans_lt ?_
        exact mul_lt_mul_of_pos_right bounds.2 unit
      have := (zpow_lt_zpow_iff_right₀ (by norm_num : (1 : ℚ) < 2)).mp above
      omega
    · have below : (2 ^ ((mantissa.log2 : Int) + exponent) : ℚ) ≤ 2 ^ (53 : Int) := by
        rw [zpow_add₀ (by norm_num)]
        refine (mul_le_mul_of_nonneg_right bounds.1 unit.le).trans (same.le.trans ?_)
        exact_mod_cast bounded
      exact (zpow_le_zpow_iff_right₀ (by norm_num : (1 : ℚ) < 2)).mp below
  simp only [integerPlaces]
  have estimated : 0 ≤ (((mantissa.log2 : Int) + exponent) * 30103).fdiv 100000 ∧
      (((mantissa.log2 : Int) + exponent) * 30103).fdiv 100000 ≤ 15 := by
    rw [Int.fdiv_eq_ediv_of_nonneg _ (by decide)]
    omega
  generalize (((mantissa.log2 : Int) + exponent) * 30103).fdiv 100000 = estimate at *
  cases found : List.find? _ [estimate - 1, estimate, estimate + 1] with
  | none =>
      rw [Option.getD_none]
      omega
  | some places =>
      have below := List.find?_some found
      rw [decide_eq_true_eq] at below
      have member := List.mem_of_find?_eq_some found
      simp only [List.mem_cons, List.not_mem_nil, or_false] at member
      have later : 1 ≤ places := by
        by_contra none
        have upward : places.toNat = 0 := by omega
        have value : mantissa * powTwo exponent.toNat = whole * powTwo (-exponent).toNat := by
          rw [zpow_eq_div, ← mul_div_assoc, div_eq_iff (by positivity), ← powTwo_cast,
            ← powTwo_cast] at same
          exact_mod_cast same
        have least : 1 * powTwo (-exponent).toNat * 1 ≤
            whole * powTwo (-exponent).toNat * powTen (-places).toNat :=
          Nat.mul_le_mul (Nat.mul_le_mul_right _ (by exact_mod_cast present))
            (Nat.pow_pos (by decide))
        have one : powTen 0 = 1 := rfl
        rw [value, upward, one, Nat.one_mul] at below
        omega
      rw [Option.getD_some]
      omega

/-- No coarser grid than that of ones is passed over, and none finer is reached. -/
theorem value_shortest_integer (positive : 0 < mantissa)
    (same : (mantissa * 2 ^ exponent : ℚ) = whole) (bounded : whole ≤ 2 ^ 53) (narrow : Bool) :
    (shortest mantissa exponent narrow).value = whole ∨
      ∃ point places : Nat, 0 < places ∧
        (shortest mantissa exponent narrow).value = (point * 10 ^ places : Nat) := by
  have bounds := integerPlaces_bounds positive same bounded
  obtain ⟨ones, count⟩ : ∃ ones : Nat, integerPlaces mantissa exponent = ones + 1 :=
    ⟨(integerPlaces mantissa exponent - 1).toNat, by omega⟩
  have onOnes : attempt mantissa exponent narrow ones = some ⟨whole, 0⟩ := by
    have grid : integerPlaces mantissa exponent - (ones + 1) = 0 := by omega
    simp only [attempt, grid, onGrid?_zero positive same, Option.map_some]
  have among : ones ∈ List.range mostDigits := by
    rw [List.mem_range, mostDigits]
    omega
  rw [value_shortest positive]
  cases found : (List.range mostDigits).findSome? (attempt mantissa exponent narrow) with
  | none =>
      rw [List.findSome?_eq_none_iff] at found
      exact absurd (found ones among) (by simp [onOnes])
  | some decimal =>
      rcases List.findSome?_eq_some_iff.mp found with ⟨before, first, after, split, attempted, none⟩
      have ordered : first ≤ ones := by
        have ascending : (List.range mostDigits).Pairwise (· < ·) := List.pairwise_lt_range
        rw [split] at ascending among
        rcases List.mem_append.mp among with earlier | later
        · exact absurd (none ones earlier) (by simp [onOnes])
        · rcases List.mem_cons.mp later with same | later
          · exact same.ge
          · exact ((List.pairwise_cons.mp (List.pairwise_append.mp ascending).2.1).1 ones later).le
      rw [Option.getD_some]
      rcases Nat.eq_or_lt_of_le ordered with rfl | less
      · obtain rfl : decimal = ⟨whole, 0⟩ := Option.some.inj (attempted.symm.trans onOnes)
        exact .inl (by simp [value])
      · rcases Option.map_eq_some_iff.mp attempted with ⟨point, _, rfl⟩
        have grid : integerPlaces mantissa exponent - (first + 1) = (ones - first : Nat) := by omega
        refine .inr ⟨point, ones - first, by omega, ?_⟩
        simp only [value, grid, zpow_natCast]
        push_cast
        rfl

end DecimalDigits

/-! An integer that needs no more bits than a mantissa has is a number of the double format. -/

namespace BinaryFormat

theorem exists_valueOf_double {whole : Nat} (positive : 0 < whole) (bounded : whole ≤ 2 ^ 53) :
    ∃ magnitude, BinaryFormat.double.valueOf magnitude = whole := by
  let places := min whole.log2 52
  have lower : 2 ^ places ≤ whole :=
    (Nat.pow_le_pow_right (by decide) (Nat.min_le_left _ _)).trans (Nat.log2_self_le positive.ne')
  have upper : whole ≤ 2 ^ (places + 1) := by
    rcases Nat.le_total whole.log2 52 with fits | long
    · have same : places = whole.log2 := Nat.min_eq_left fits
      rw [same]
      exact Nat.lt_log2_self.le
    · have same : places = 52 := Nat.min_eq_right long
      rw [same]
      exact bounded
  have small : places ≤ 52 := Nat.min_le_right _ _
  have unit : powTwo 52 = 2 ^ places * 2 ^ (52 - places) := by
    rw [← Nat.pow_add, Nat.add_sub_cancel' small]
    rfl
  have inBlock : BinaryFormat.double.InBlock (places + 1022) (whole * 2 ^ (52 - places)) := by
    constructor
    · intro _
      show powTwo 52 ≤ _
      rw [unit]
      exact Nat.mul_le_mul_right _ lower
    · show _ ≤ 2 * powTwo 52
      rw [unit, ← Nat.mul_assoc, ← Nat.pow_succ']
      exact Nat.mul_le_mul_right _ upper
  refine ⟨_, inBlock.valueOf.trans ?_⟩
  have least : BinaryFormat.double.leastExponent = -1074 := by decide
  have exponent : (-1074 + ((places + 1022 : Nat) : Int)) = -((52 - places : Nat) : Int) := by omega
  rw [least, exponent, zpow_neg, zpow_natCast]
  push_cast
  field_simp

theorem midpoint_last : ∃ magnitude, BinaryFormat.double.valueOf magnitude = (2 ^ 53 : Nat) ∧
    BinaryFormat.double.midpoint magnitude = (2 ^ 53 + 1 : Nat) := by
  have first : BinaryFormat.double.InBlock 1075 (powTwo 52) :=
    ⟨fun _ => le_rfl, Nat.le_mul_of_pos_left _ (by decide)⟩
  have second : BinaryFormat.double.InBlock 1075 (powTwo 52 + 1) :=
    ⟨fun _ => Nat.le_succ _, by decide⟩
  have least : BinaryFormat.double.leastExponent = -1074 := by decide
  have unit : powTwo 52 = 2 ^ 52 := rfl
  refine ⟨_, first.valueOf.trans ?_, (first.midpoint second).trans ?_⟩ <;>
    rw [least, unit] <;> norm_num

theorem shortestOf_integer {whole magnitude : Nat}
    (same : BinaryFormat.double.valueOf magnitude = whole) (bounded : whole ≤ 2 ^ 53) :
    BinaryFormat.double.shortestOf magnitude = whole := by
  rcases Nat.eq_zero_or_pos magnitude with rfl | positive
  · rw [shortestOf_zero, ← same, valueOf_zero]
  have rounds := @roundsTo_shortestOf .double magnitude (by decide) positive
  rcases DecimalDigits.value_shortest_integer (mantissaOf_pos _ positive) same bounded
    (BinaryFormat.double.narrowAt magnitude) with exactly | ⟨point, places, coarse, written⟩
  · exact exactly
  · -- A point of a coarser grid is an integer as well, and a number if it is within the bound.
    have digits : BinaryFormat.double.shortestOf magnitude = (point * 10 ^ places : Nat) := written
    rw [digits] at rounds ⊢
    have present : 0 < point * 10 ^ places := Nat.cast_pos.mp (rounds.pos positive)
    rcases Nat.lt_or_ge (2 ^ 53) (point * 10 ^ places) with beyond | within
    · rcases midpoint_last with ⟨last, value, middle⟩
      have above : last ≤ magnitude := by
        refine (roundsTo_valueOf last).mono rounds ?_
        rw [value]
        exact_mod_cast beyond.le
      have below : magnitude ≤ last := by
        rw [← strictMono_valueOf.le_iff_le (f := BinaryFormat.double.valueOf), value, same]
        exact_mod_cast bounded
      obtain rfl := Nat.le_antisymm above below
      have next : point * 10 ^ places ≤ 2 ^ 53 + 1 := by
        have most := rounds.below.1
        rw [middle] at most
        exact_mod_cast most
      have tenfold : 10 ∣ point * 10 ^ places :=
        Dvd.dvd.mul_left (dvd_pow_self 10 coarse.ne') point
      omega
    · rcases exists_valueOf_double present within with ⟨other, value⟩
      have near : BinaryFormat.double.RoundsTo (point * 10 ^ places : Nat) other := by
        rw [← value]
        exact roundsTo_valueOf other
      rw [← value, near.unique rounds, same]

end BinaryFormat

end StreamQuery
