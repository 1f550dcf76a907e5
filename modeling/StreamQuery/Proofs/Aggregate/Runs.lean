import StreamQuery.Proofs.Aggregate.Acceptance
import StreamQuery.Proofs.Value.Operands
namespace StreamQuery

/-! An aggregate over operands that are taken one after the other. Nulls leave every aggregate as it
is, except for the one that counts records. -/

def Aggregation.over (aggregation : Aggregation) (operands : List Value) :
    Except QueryError Value :=
  (operands.foldlM Accumulator.update (.start aggregation)).map Accumulator.finish

namespace Accumulator

theorem update_null {accumulator : Accumulator} (skips : accumulator.aggregation ≠ .countRows) :
    accumulator.update .null = .ok accumulator := by
  cases accumulator <;> first | rfl | exact absurd rfl skips

theorem foldlM_update_present {accumulator : Accumulator}
    (skips : accumulator.aggregation ≠ .countRows) (operands : List Value) :
    operands.foldlM update accumulator =
      (Value.present operands).foldlM updatePresent accumulator := by
  induction operands generalizing accumulator with
  | nil => rfl
  | cons operand operands induction =>
      cases null : operand.isNull with
      | true =>
          obtain rfl := Value.eq_null_of_isNull null
          rw [Value.present_null, List.foldlM_cons, update_null skips]
          exact induction skips
      | false =>
          have kind := accumulator.ensures_update operand
          rw [accumulator.update_of_present null] at kind
          rw [Value.present_cons _ null, List.foldlM_cons, List.foldlM_cons,
            accumulator.update_of_present null]
          cases updates : accumulator.updatePresent operand with
          | error error => rfl
          | ok next => exact induction (kind next updates ▸ skips)

theorem over_of_steps {aggregation : Aggregation} {wrap : σ → Accumulator} {next : σ → Value → σ}
    {operands : List Value} (begins : start aggregation = wrap initial)
    (skips : aggregation ≠ .countRows)
    (steps : ∀ operand ∈ Value.present operands, ∀ state,
      (wrap state).updatePresent operand = .ok (wrap (next state operand))) :
    aggregation.over operands =
      .ok (wrap ((Value.present operands).foldl next initial)).finish := by
  have others : (start aggregation).aggregation ≠ .countRows := by rwa [start_aggregation]
  rw [Aggregation.over, foldlM_update_present others, begins, foldlM_of_steps steps]
  rfl

end Accumulator

end StreamQuery
