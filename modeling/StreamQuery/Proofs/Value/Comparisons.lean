import StreamQuery.Feature.Basic
import StreamQuery.Proofs.Value.Normalization
namespace StreamQuery

/-! What the comparisons of a query say of two values. Two numbers compare unless one is not a
number; but a decimal does not compare with an infinity, although both compare with all other
numbers. -/

namespace Comparison

def complement : Comparison → Comparison
  | .equal => .different
  | .different => .equal
  | .less => .greaterOrEqual
  | .lessOrEqual => .greater
  | .greater => .lessOrEqual
  | .greaterOrEqual => .less

theorem accepts_complement (comparison : Comparison) (order : Ordering) :
    comparison.complement.accepts order = !comparison.accepts order := by
  cases comparison <;> cases order <;> rfl

theorem existsUnique_accepts (order : Ordering) :
    ∃! comparison, comparison ∈ [less, equal, greater] ∧ comparison.accepts order := by
  cases order with
  | lt => exact ⟨less, by decide, fun other => by cases other <;> decide⟩
  | eq => exact ⟨equal, by decide, fun other => by cases other <;> decide⟩
  | gt => exact ⟨greater, by decide, fun other => by cases other <;> decide⟩

end Comparison

namespace Value

theorem compareNumbers?_swap (left right : Value) :
    left.compareNumbers? right = (right.compareNumbers? left).map Ordering.swap := by
  simp only [compareNumbers?]
  cases left.asNumber? with
  | none => cases right.asNumber? <;> rfl
  | some x =>
      cases right.asNumber? with
      | none => rfl
      | some y => exact x.compare?_swap y

theorem compare?_swap (left right : Value) :
    left.compare? right = (right.compare? left).map Ordering.swap := by
  have reads {α : Type} (read : Option α) {order back : α → Ordering}
      (sides : ∀ value, order value = (back value).swap) :
      read.map order = (read.map back).map Ordering.swap := by
    cases read with
    | none => rfl
    | some value => exact congrArg some (sides value)
  have naturals (x y : Nat) : compare x y = (compare y x).swap := (Nat.compare_swap y x).symm
  have integers (x y : Int64) : compare x y = (compare y x).swap := (Int64.compare_swap y x).symm
  cases left <;> cases right <;> simp only [compare?] <;>
    first
    | exact compareNumbers?_swap _ _
    | rfl
    | exact congrArg some (naturals _ _)
    | exact congrArg some (integers _ _)
    | exact congrArg some (compareText_swap _ _)
    | exact congrArg some (orderItems_swap _ _)
    | exact congrArg some (orderFields_swap _ _)
    | exact reads _ fun _ => naturals _ _
    | exact reads _ fun _ => integers _ _

open Comparison

variable {left right : Value}

theorem holds_of_compare? {order : Ordering} (compares : left.compare? right = some order)
    (comparison : Comparison) : comparison.holds left right = comparison.accepts order := by
  rw [holds, compares]

theorem holds_of_incomparable (apart : left.compare? right = none) (comparison : Comparison) :
    comparison.holds left right = false := by
  rw [holds, apart]

/-! A null compares with nothing. -/

theorem holds_null_left (comparison : Comparison) (other : Value) :
    comparison.holds .null other = false :=
  holds_of_incomparable (by cases other <;> rfl) comparison

theorem holds_null_right (comparison : Comparison) (value : Value) :
    comparison.holds value .null = false :=
  holds_of_incomparable (by cases value <;> rfl) comparison

/-- Two numbers do not compare if one is not a number or if a decimal stands beside an infinity, and
then no comparison holds of them. All others compare, in reverse if they are exchanged, and exactly
one of less, equal and greater holds of them; the other comparisons are the complements. -/
theorem compare_numbers {x y : Number} (first : left.number? = some x)
    (second : right.number? = some y) :
    (x.compare? y = none ↔
      x.isNaN ∨ y.isNaN ∨ (x.isDecimal ∧ y.isInfinite) ∨ (x.isInfinite ∧ y.isDecimal)) ∧
    y.compare? x = (x.compare? y).map Ordering.swap ∧
    (x.compare? y = none → ∀ comparison : Comparison, comparison.holds left right = false) ∧
    (x.compare? y ≠ none →
      (∃! comparison, comparison ∈ [less, equal, greater] ∧ comparison.holds left right) ∧
      ∀ comparison : Comparison,
        comparison.complement.holds left right = !comparison.holds left right) := by
  have compares := compare?_of_numbers first second
  refine ⟨x.compare?_eq_none_iff y, y.compare?_swap x, fun apart => ?_, fun together => ?_⟩
  · exact holds_of_incomparable (compares.trans apart)
  · obtain ⟨order, found⟩ := Option.ne_none_iff_exists'.mp together
    simp only [holds_of_compare? (compares.trans found)]
    exact ⟨existsUnique_accepts order, fun comparison => comparison.accepts_complement order⟩

theorem compare_numbers_one_and_infinity :
    (Value.int64 1).number? = some (.int 1) ∧
      (Value.double (Binary.infinite false)).number? = some (.float (Binary.infinite false)) ∧
      less.holds (.int64 1) (.double (Binary.infinite false)) ∧
      ∃! comparison, comparison ∈ [less, equal, greater] ∧
        comparison.holds (.int64 1) (.double (Binary.infinite false)) :=
  have first : (Value.int64 1).number? = some (.int 1) := rfl
  have second : (Value.double (Binary.infinite false)).number? =
    some (.float (Binary.infinite false)) := rfl
  ⟨first, second, by decide +kernel,
    ((compare_numbers first second).2.2.2 (by decide +kernel)).1⟩

/-- Neither is NaN, but no comparison holds between a decimal and an infinity. -/
theorem decimal_beside_infinity_incomparable :
    (Number.decimal (.ofInt 1)).isNaN = false ∧
      (Number.float (Binary.infinite false)).isNaN = false ∧
      (Number.decimal (.ofInt 1)).compare? (.float (Binary.infinite false)) = none ∧
      different.holds (.decimal (.ofInt 1)) (.double (Binary.infinite false)) = false := by
  decide +kernel

end Value

end StreamQuery
