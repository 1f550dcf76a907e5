import Mathlib.Data.List.Range
import StreamQuery.Proofs.Window.Durations
import StreamQuery.Proofs.Window.OpenWindows
import StreamQuery.Proofs.Window.Sizes
import StreamQuery.Window.Words
namespace StreamQuery

/-! The windows of a position, in words. Sizes and steps that a call can give are words and are not
zero, and then every operation on the way has a result. -/

namespace Word

variable {first second : UInt64}

theorem exists_divide? (dividend : UInt64) {divisor : UInt64} (positive : 0 < divisor.toNat) :
    ∃ quotient, divide? dividend divisor = some quotient ∧
      quotient.toNat = dividend.toNat / divisor.toNat := by
  have nonzero : divisor ≠ 0 := by
    rintro rfl
    exact Nat.lt_irrefl 0 positive
  exact ⟨_, if_neg nonzero, UInt64.toNat_div _ _⟩

theorem exists_subtract? (within : second ≤ first) :
    ∃ difference, subtract? first second = some difference ∧
      difference.toNat = first.toNat - second.toNat :=
  ⟨_, if_pos within, UInt64.toNat_sub_of_le _ _ within⟩

theorem exists_add? (fits : first.toNat + second.toNat < UInt64.size) :
    ∃ sum, add? first second = some sum ∧ sum.toNat = first.toNat + second.toNat :=
  ⟨_, if_pos fits, (UInt64.toNat_add first second).trans (Nat.mod_eq_of_lt fits)⟩

theorem map_toNat_through (first last : UInt64) : (through first last).map UInt64.toNat =
    List.range' first.toNat (last.toNat + 1 - first.toNat) := by
  fun_induction through first last with
  | case1 first below induction =>
      have bound := last.toNat_lt
      have less : first.toNat < last.toNat := UInt64.lt_iff_toNat_lt.mp below
      have next : (first + 1).toNat = first.toNat + 1 := by
        rw [UInt64.toNat_add, UInt64.toNat_one, Nat.mod_eq_of_lt (by omega)]
      have length : last.toNat + 1 - first.toNat = last.toNat + 1 - (first.toNat + 1) + 1 := by
        omega
      rw [List.map_cons, induction, next, length, List.range'_succ]
  | case2 => simp
  | case3 first unequal different =>
      have greater : last.toNat < first.toNat := by
        have least := mt UInt64.lt_iff_toNat_lt.mpr unequal
        have apart := mt UInt64.toNat_inj.mp different
        omega
      have none : last.toNat + 1 - first.toNat = 0 := by omega
      rw [none]
      rfl

end Word

namespace Window

section

variable {position size step : UInt64}

/-- Since windows have a size, one of them ends behind the last position there is, and so the number
after those that have ended is a word. -/
theorem exists_firstOpen? (sized : 0 < size.toNat) (stepped : 0 < step.toNat) :
    ∃ first, firstOpen? position size step = some first ∧
      first.toNat = if size.toNat ≤ position.toNat then
        (position.toNat - size.toNat) / step.toNat + 1 else 0 := by
  rw [firstOpen?]
  by_cases reached : size ≤ position
  · rcases Word.exists_subtract? reached with ⟨passed, subtracts, difference⟩
    rcases Word.exists_divide? passed stepped with ⟨ended, divides, quotient⟩
    have fits : ended.toNat + (1 : UInt64).toNat < UInt64.size := by
      have bound := position.toNat_lt
      have shorter := Nat.div_le_self passed.toNat step.toNat
      change ended.toNat + 1 < 2 ^ 64
      omega
    rcases Word.exists_add? fits with ⟨first, adds, sum⟩
    refine ⟨first, ?_, ?_⟩
    · simp only [reached, subtracts, divides, adds, if_true, Option.bind_eq_bind, Option.bind_some]
    · rw [if_pos (UInt64.le_iff_toNat_le.mp reached), sum, quotient, difference, UInt64.toNat_one]
  · refine ⟨0, if_neg reached, ?_⟩
    rw [if_neg (mt UInt64.le_iff_toNat_le.mpr reached), UInt64.toNat_zero]

theorem exists_coveringWords? (sized : 0 < size.toNat) (stepped : 0 < step.toNat) :
    ∃ ids, coveringWords? position size step = some ids ∧
      ids.map UInt64.toNat = covering position.toNat size.toNat step.toNat := by
  rcases Word.exists_divide? position stepped with ⟨last, divides, quotient⟩
  rcases @exists_firstOpen? position size step sized stepped with ⟨first, opens, number⟩
  refine ⟨Word.through first last, ?_, ?_⟩
  · simp only [coveringWords?, divides, opens, Option.bind_eq_bind, Option.bind_some]
  · rw [Word.map_toNat_through, covering, quotient, number, List.range'_eq_map_range]

/-- Windows without a size would overflow at the last position. -/
example : coveringWords? 18446744073709551615 0 1 = none := by decide

end

theorem covering_eq_nil_iff {position size step : Nat} (stepped : 0 < step) :
    covering position size step = [] ↔ size ≤ position % step := by
  have parts := Nat.div_add_mod' position step
  rw [List.eq_nil_iff_forall_not_mem]
  constructor
  · intro outside
    have latest := mt (mem_covering stepped).mpr (outside (position / step))
    omega
  · intro gap id covers
    rcases (mem_covering stepped).mp covers with ⟨begun, unended⟩
    have earlier : id * step ≤ position / step * step :=
      Nat.mul_le_mul_right step ((Nat.le_div_iff_mul_le stepped).mpr begun)
    omega

/-! Windows of calls. -/

theorem duration_fits (call : Call) (argument : Expr) :
    Ensures (duration call argument) fun millis => 0 < millis ∧ millis < UInt64.size := by
  intro millis accepts
  rcases (duration_eq_ok_iff call).mp accepts with ⟨lasts, positive⟩
  refine ⟨positive, ?_⟩
  unfold Expr.Lasts at lasts
  split at lasts
  · exact lasts.2
  · next number =>
      have bound := number.toInt_lt
      change millis < 2 ^ 64
      omega
  · exact lasts.elim

theorem recordCount_fits (call : Call) (records : Int64) :
    Ensures (recordCount call records) fun count => 0 < count ∧ count < UInt64.size := by
  simp only [recordCount]
  split
  · have bound := records.toInt_lt
    apply ensures_ok
    change 0 < records.toInt.toNat ∧ records.toInt.toNat < 2 ^ 64
    omega
  · exact ensures_error _

/-- How long a window is, and how far it is from one window to the next. A predicate tells
neither. -/
def extent? : Window → Option (Nat × Nat)
  | .time size step | .count size step => some (size, step)
  | .predicate _ => none

theorem Measures.extent {holds : Nat → Prop} {window : Window} {size step : Nat}
    (measures : window.Measures holds) (extent : window.extent? = some (size, step)) :
    holds size ∧ holds step := by
  cases window with
  | predicate => cases extent
  | _ =>
      cases extent
      exact measures

end Window

namespace GroupFeature

/-- The windows that a call asks for are told for every position in words, without a division by
zero or an overflow: they are those between whose begin and end it lies, in ascending order. There
are none where the position falls in a gap between one window and the next. -/
theorem covering_exact_in_words {feature : GroupFeature} {call : Call} {arguments : List Compiled}
    {window : Window} (accepts : feature.compile call arguments = .ok window) {size step : Nat}
    (extent : window.extent? = some (size, step)) (position : UInt64) :
    (UInt64.ofNat size).toNat = size ∧ (UInt64.ofNat step).toNat = step ∧
      ∃ ids, Window.coveringWords? position (.ofNat size) (.ofNat step) = some ids ∧
        ids.Pairwise (· < ·) ∧
        (∀ id : Nat, id ∈ ids.map UInt64.toNat ↔
          id * step ≤ position.toNat ∧ position.toNat < id * step + size) ∧
        (ids = [] ↔ size ≤ position.toNat % step) ∧
        ids.map UInt64.toNat = Window.covering position.toNat size step := by
  have fits := compile_measures Window.duration_fits Window.recordCount_fits feature call arguments
  rcases (fits window accepts).extent extent with ⟨⟨sized, sizeFits⟩, stepped, stepFits⟩
  have exactSize : (UInt64.ofNat size).toNat = size := UInt64.toNat_ofNat_of_lt' sizeFits
  have exactStep : (UInt64.ofNat step).toNat = step := UInt64.toNat_ofNat_of_lt' stepFits
  have found := @Window.exists_coveringWords? position (.ofNat size) (.ofNat step)
    (by rwa [exactSize]) (by rwa [exactStep])
  rw [exactSize, exactStep] at found
  rcases found with ⟨ids, covers, exact⟩
  refine ⟨exactSize, exactStep, ids, covers, ?_, ?_, ?_, exact⟩
  · have ascending := Window.covering_pairwise position.toNat size step
    rw [← exact, List.pairwise_map] at ascending
    exact ascending.imp UInt64.lt_iff_toNat_lt.mpr
  · intro id
    rw [exact]
    exact Window.mem_covering stepped
  · rw [← Window.covering_eq_nil_iff stepped, ← exact, List.map_eq_nil_iff]

/-- `_window(3, 5)` -/
theorem covering_exact_in_words_gap :
    let call : Call :=
      ⟨"_window", [.literal (.integer 3), .literal (.integer 5)], false, false⟩
    GroupFeature.window.compile call [] = .ok (.count 3 5) ∧
      (Window.count 3 5).extent? = some (3, 5) ∧
      Window.coveringWords? 18446744073709551614 3 5 = some [] := by
  intro call
  have accepts : GroupFeature.window.compile call [] = .ok (.count 3 5) := rfl
  rcases covering_exact_in_words accepts rfl 18446744073709551614 with
    ⟨_, _, ids, covers, _, _, gap, _⟩
  obtain rfl : ids = [] := gap.mpr (by decide)
  exact ⟨accepts, rfl, covers⟩

end GroupFeature

end StreamQuery
