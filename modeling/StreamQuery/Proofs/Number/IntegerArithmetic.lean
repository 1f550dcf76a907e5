import StreamQuery.Proofs.Number.DoubleDecimals
namespace StreamQuery.Number

/-! Arithmetic on integers of 64 bits is exact wherever the exact result has 64 bits, with one
exception. The quotient of the least integer by minus one does not have 64 bits; the remainder does,
and is given up together with the quotient. -/

namespace Operation

/-- The result over the integers. Quotients are cut off toward zero, and a remainder has the sign of
the dividend. -/
def exact : Operation → Int → Int → Int
  | .add, x, y => x + y
  | .subtract, x, y => x - y
  | .multiply, x, y => x * y
  | .divide, x, y => x.tdiv y
  | .remainder, x, y => x.tmod y

/-- The quotient beside the remainder does not have 64 bits. -/
def GivesUp (operation : Operation) (x y : Int64) : Prop :=
  operation = .remainder ∧ x = Int64.minValue ∧ y = -1

end Operation

theorem toInt64?_eq_some_iff {value : Int} {whole : Int64} :
    StreamQuery.toInt64? value = some whole ↔ value = whole.toInt :=
  ⟨fun fits => (eq_of_toInt64? fits).symm, fun same => same ▸ toInt64?_toInt whole⟩

theorem toInt64?_eq_none_iff {value : Int} :
    StreamQuery.toInt64? value = none ↔ ¬ (-2 ^ 63 ≤ value ∧ value < 2 ^ 63) := by
  simp only [StreamQuery.toInt64?]
  split <;> simp <;> omega

variable (x y : Int64)

theorem quotient_eq_none_iff :
    StreamQuery.toInt64? (x.toInt.tdiv y.toInt) = none ↔ x = Int64.minValue ∧ y = -1 := by
  have lower := x.le_toInt
  have upper := x.toInt_lt
  have corner : (x = Int64.minValue ∧ y = -1) ↔ x.toInt = -2 ^ 63 ∧ y.toInt = -1 := by
    rw [← Int64.toInt_inj, ← Int64.toInt_inj]
    rfl
  rw [corner, toInt64?_eq_none_iff]
  have size : (x.toInt.tdiv y.toInt).natAbs = x.toInt.natAbs / y.toInt.natAbs :=
    Int.natAbs_tdiv ..
  rcases Nat.lt_or_ge y.toInt.natAbs 2 with small | large
  · have : y.toInt = 0 ∨ y.toInt = 1 ∨ y.toInt = -1 := by omega
    rcases this with zero | one | minus
    · rw [zero, Int.tdiv_zero]
      omega
    · rw [one, Int.tdiv_one]
      omega
    · rw [minus, Int.tdiv_neg, Int.tdiv_one]
      omega
  · have half : x.toInt.natAbs / y.toInt.natAbs ≤ x.toInt.natAbs / 2 :=
      Nat.div_le_div_left large (by omega)
    omega

variable (operation : Operation)

theorem onIntegers?_of_givesUp (corner : operation.GivesUp x y) :
    operation.onIntegers? x y = none := by
  rcases corner with ⟨rfl, corner⟩
  rw [Operation.onIntegers?, (quotient_eq_none_iff x y).mpr corner, Option.bind_none]

theorem onIntegers?_of_not_givesUp (regular : ¬ operation.GivesUp x y) :
    operation.onIntegers? x y =
      StreamQuery.toInt64? (operation.exact x.toInt y.toInt) := by
  cases operation with
  | add | subtract | multiply | divide => rfl
  | remainder =>
    have found : StreamQuery.toInt64? (x.toInt.tdiv y.toInt) ≠ none :=
      fun missing => regular ⟨rfl, (quotient_eq_none_iff x y).mp missing⟩
    obtain ⟨quotient, found⟩ := Option.ne_none_iff_exists'.mp found
    rw [Operation.onIntegers?, found, Option.bind_some, Operation.exact]

theorem onIntegers?_eq_some_iff (result : Int64) :
    operation.onIntegers? x y = some result ↔
      operation.exact x.toInt y.toInt = result.toInt ∧ ¬ operation.GivesUp x y := by
  by_cases corner : operation.GivesUp x y
  · simp [onIntegers?_of_givesUp x y operation corner, corner]
  · rw [onIntegers?_of_not_givesUp x y operation corner, toInt64?_eq_some_iff]
    exact (and_iff_left corner).symm

theorem onIntegers?_eq_none_iff :
    operation.onIntegers? x y = none ↔
      ¬ (-2 ^ 63 ≤ operation.exact x.toInt y.toInt ∧ operation.exact x.toInt y.toInt < 2 ^ 63) ∨
        operation.GivesUp x y := by
  by_cases corner : operation.GivesUp x y
  · simp [onIntegers?_of_givesUp x y operation corner, corner]
  · rw [onIntegers?_of_not_givesUp x y operation corner, toInt64?_eq_none_iff]
    exact (or_iff_left corner).symm

theorem arithmetic?_of_zero (zero : operation.divides ∧ y = 0) :
    arithmetic? operation (.int x) (.int y) = none := by
  simp [arithmetic?, isZero, zero.1, zero.2]

theorem arithmetic?_of_onIntegers (divisor : ¬ (operation.divides ∧ y = 0)) {exact : Int64}
    (found : operation.onIntegers? x y = some exact) :
    arithmetic? operation (.int x) (.int y) = some (.int exact) := by
  rw [arithmetic?, if_neg (by simpa [isZero] using divisor)]
  simp only [found]

theorem arithmetic?_of_onFloats (divisor : ¬ (operation.divides ∧ y = 0))
    (missing : operation.onIntegers? x y = none) :
    arithmetic? operation (.int x) (.int y) =
      some (.float (operation.onFloats (Binary.ofInt x.toInt) (Binary.ofInt y.toInt))) := by
  rw [arithmetic?, if_neg (by simpa [isZero] using divisor)]
  simp only [missing]

/-- Two integers have no result exactly for a zero divisor. The result is the exact one, as an
integer, wherever that one has 64 bits and is not given up, and a float elsewhere. -/
theorem arithmetic?_integers :
    (arithmetic? operation (.int x) (.int y) = none ↔ operation.divides ∧ y = 0) ∧
    (∀ result : Int64, arithmetic? operation (.int x) (.int y) = some (.int result) ↔
      ¬ (operation.divides ∧ y = 0) ∧
        operation.exact x.toInt y.toInt = result.toInt ∧ ¬ operation.GivesUp x y) ∧
    ∀ result : Double, arithmetic? operation (.int x) (.int y) = some (.float result) ↔
      ¬ (operation.divides ∧ y = 0) ∧
        (¬ (-2 ^ 63 ≤ operation.exact x.toInt y.toInt ∧
          operation.exact x.toInt y.toInt < 2 ^ 63) ∨ operation.GivesUp x y) ∧
        operation.onFloats (Binary.ofInt x.toInt) (Binary.ofInt y.toInt) = result := by
  by_cases zero : operation.divides ∧ y = 0
  · rw [arithmetic?_of_zero x y operation zero]
    exact ⟨iff_of_true rfl zero, fun _ => iff_of_false nofun fun given => given.1 zero,
      fun _ => iff_of_false nofun fun given => given.1 zero⟩
  · have given := onIntegers?_eq_none_iff x y operation
    have kept := onIntegers?_eq_some_iff x y operation
    cases result : operation.onIntegers? x y with
    | none =>
      rw [arithmetic?_of_onFloats x y operation zero result]
      refine ⟨iff_of_false nofun zero, fun other => iff_of_false nofun fun exact => ?_,
        fun other => ?_⟩
      · exact nomatch result.symm.trans ((kept other).mpr exact.2)
      · rw [and_iff_right zero, and_iff_right (given.mp result)]
        simp
    | some whole =>
      rw [arithmetic?_of_onIntegers x y operation zero result]
      refine ⟨iff_of_false nofun zero, fun other => ?_,
        fun other => iff_of_false nofun fun float => ?_⟩
      · rw [and_iff_right zero, ← kept other, result]
        simp
      · exact nomatch result.symm.trans (given.mpr float.2.1)

/-- The remainder of the least integer by minus one is zero, but comes out as a float. -/
theorem remainder_least_by_minus_one :
    Operation.remainder.exact Int64.minValue.toInt (-1 : Int64).toInt = (0 : Int64).toInt ∧
      arithmetic? .remainder (.int Int64.minValue) (.int (-1)) =
        some (.float (Binary.zero true)) := by
  decide +kernel

end StreamQuery.Number
