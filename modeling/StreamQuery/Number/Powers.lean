namespace StreamQuery

/-! Powers of the bases in which numbers are written. -/

def powTwo (exponent : Nat) : Nat :=
  Nat.pow 2 exponent

def powTen (exponent : Nat) : Nat :=
  Nat.pow 10 exponent

/-! A power of ten beyond a value is as good as any larger one to divide the value by, and to compare
a multiple with it. So the exponent may be cut by the length of the value, and a large one costs
nothing. -/

def powTenFor (value : Int) (exponent : Nat) : Nat :=
  powTen (min exponent (value.natAbs.log2 + 1))

theorem natAbs_lt_powTen (value : Int) : value.natAbs < powTen (value.natAbs.log2 + 1) :=
  Nat.lt_of_lt_of_le Nat.lt_log2_self (Nat.pow_le_pow_left (by decide) _)

theorem powTenFor_eq_or (value : Int) (exponent : Nat) :
    powTenFor value exponent = powTen exponent ∨
      value.natAbs < powTenFor value exponent ∧ value.natAbs < powTen exponent := by
  by_cases short : exponent ≤ value.natAbs.log2 + 1
  · exact .inl (by rw [powTenFor, Nat.min_eq_left short])
  · have long := Nat.le_of_not_le short
    have beyond := natAbs_lt_powTen value
    exact .inr ⟨by rwa [powTenFor, Nat.min_eq_right long],
      Nat.lt_of_lt_of_le beyond (Nat.pow_le_pow_right (by decide) long)⟩

theorem tdiv_eq_zero_of_natAbs_lt {value : Int} {divisor : Nat} (beyond : value.natAbs < divisor) :
    value.tdiv divisor = 0 := by
  rw [← Int.natAbs_eq_zero, Int.natAbs_tdiv]
  exact Nat.div_eq_of_lt beyond

theorem tdiv_powTenFor (value : Int) (exponent : Nat) :
    value.tdiv (powTenFor value exponent) = value.tdiv (powTen exponent) := by
  rcases powTenFor_eq_or value exponent with same | ⟨cut, whole⟩
  · rw [same]
  · rw [tdiv_eq_zero_of_natAbs_lt cut, tdiv_eq_zero_of_natAbs_lt whole]

theorem compare_mul_of_natAbs_lt {value : Int} {unit : Nat} (beyond : value.natAbs < unit)
    (factor : Int) :
    compare (factor * unit) value = if factor = 0 then compare 0 value else compare factor 0 := by
  rcases Int.lt_trichotomy factor 0 with negative | rfl | positive
  · have below : factor * unit ≤ -1 * unit :=
      Int.mul_le_mul_of_nonneg_right (by omega) (Int.natCast_nonneg _)
    rw [if_neg (by omega), Int.compare_eq_lt.2 negative, Int.compare_eq_lt]
    omega
  · simp
  · have above : 1 * unit ≤ factor * unit :=
      Int.mul_le_mul_of_nonneg_right (by omega) (Int.natCast_nonneg _)
    rw [if_neg (by omega), Int.compare_eq_gt.2 positive, Int.compare_eq_gt]
    omega

theorem compare_mul_powTenFor (factor value : Int) (exponent : Nat) :
    compare (factor * powTenFor value exponent) value = compare (factor * powTen exponent) value := by
  rcases powTenFor_eq_or value exponent with same | ⟨cut, whole⟩
  · rw [same]
  · rw [compare_mul_of_natAbs_lt cut, compare_mul_of_natAbs_lt whole]

end StreamQuery
