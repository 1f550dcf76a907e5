import StreamQuery.Proofs.Function.Casts
import StreamQuery.Window.Grouping
namespace StreamQuery

/-! An accumulator takes exactly the operands that its check lets pass. -/

namespace Accumulator

theorem start_aggregation (aggregation : Aggregation) :
    (start aggregation).aggregation = aggregation := by
  cases aggregation <;> rfl

/-- What an update comes to, told by the check before it: the same aggregate over one operand more,
or the error of the check. -/
def Accepts (accumulator : Accumulator) (check : Except QueryError Unit)
    (updated : Except QueryError Accumulator) : Prop :=
  match check with
  | .ok () => ∃ next, updated = .ok next ∧ next.aggregation = accumulator.aggregation
  | .error error => updated = .error error

theorem accepts_bind {accumulator : Accumulator} (operand : Except QueryError α)
    {next : α → Except QueryError Accumulator}
    (updates : ∀ value, accumulator.Accepts (.ok ()) (next value)) :
    accumulator.Accepts (operand.map fun _ => ()) (operand >>= next) := by
  cases operand with
  | error error => rfl
  | ok value => exact updates value

theorem accepts_updatePresent (accumulator : Accumulator) {value : Value}
    (present : value.isNull = false) :
    accumulator.Accepts (accumulator.check value) (accumulator.updatePresent value) := by
  simp only [check, Aggregation.check, present, Bool.false_eq_true, if_false]
  cases accumulator with
  | countRows | count | countDistinct | minimum | maximum => exact ⟨_, rfl, rfl⟩
  | sum total =>
      apply accepts_bind (Aggregation.sum.numericOperand value)
      intro operand
      cases total <;> exact ⟨_, rfl, rfl⟩
  | average total operands =>
      exact accepts_bind (Aggregation.average.numericOperand value) fun _ => ⟨_, rfl, rfl⟩
  | deviation operands mean squares =>
      exact accepts_bind (Aggregation.deviation.numericOperand value) fun _ => ⟨_, rfl, rfl⟩
  | geometricMean operands logarithms =>
      exact accepts_bind (Aggregation.positiveOperand value) fun _ => ⟨_, rfl, rfl⟩

theorem update_of_present (accumulator : Accumulator) {value : Value}
    (present : value.isNull = false) :
    accumulator.update value = accumulator.updatePresent value := by
  cases accumulator <;> cases value <;> first | rfl | cases present

theorem accepts_update (accumulator : Accumulator) (value : Value) :
    accumulator.Accepts (accumulator.check value) (accumulator.update value) := by
  cases null : value.isNull with
  | true =>
      cases value with
      | null => cases accumulator <;> exact ⟨_, rfl, rfl⟩
      | _ => cases null
  | false =>
      rw [accumulator.update_of_present null]
      exact accumulator.accepts_updatePresent null

theorem ensures_update (accumulator : Accumulator) (value : Value) :
    Ensures (accumulator.update value) fun next => next.aggregation = accumulator.aggregation := by
  have accepts := accumulator.accepts_update value
  cases check : accumulator.check value with
  | error error =>
      rw [check] at accepts
      rw [show accumulator.update value = .error error from accepts]
      exact ensures_error error
  | ok =>
      rw [check] at accepts
      rcases accepts with ⟨next, update, kind⟩
      rw [update]
      exact ensures_ok kind

end Accumulator

namespace Aggregation

theorem numericOperand_fails (aggregation : Aggregation) (value : Value) :
    FailsAsCast (aggregation.numericOperand value) := by
  simp only [numericOperand]
  split
  · exact failsOnly_ok _
  · exact failsOnly_error rfl

theorem positiveOperand_fails (value : Value) : FailsAsCast (positiveOperand value) := by
  refine (geometricMean.numericOperand_fails value).bind fun number => ?_
  dsimp only
  split
  · exact failsOnly_error rfl
  · exact failsOnly_error rfl
  · exact failsOnly_ok _

theorem check_fails (aggregation : Aggregation) (value : Value) :
    FailsAsCast (aggregation.check value) := by
  simp only [check]
  split
  · exact failsOnly_ok _
  · split
    · exact (numericOperand_fails _ value).map _
    · exact (numericOperand_fails _ value).map _
    · exact (numericOperand_fails _ value).map _
    · exact (positiveOperand_fails value).map _
    · exact failsOnly_ok _

end Aggregation

theorem Accumulator.update_fails (accumulator : Accumulator) (value : Value) :
    FailsAsCast (accumulator.update value) := by
  have accepts := accumulator.accepts_update value
  cases check : accumulator.check value with
  | ok =>
      rw [check] at accepts
      rcases accepts with ⟨next, update, _⟩
      exact update ▸ failsOnly_ok next
  | error error =>
      rw [check] at accepts
      have same : accumulator.update value = .error error := accepts
      exact same ▸ failsOnly_error (accumulator.aggregation.check_fails value error check)

namespace Grouping

theorem checkOperands_fails (aggregations : List Aggregation) (operands : List Value) :
    FailsAsCast (checkOperands aggregations operands) := by
  induction aggregations generalizing operands with
  | nil => exact failsOnly_ok ()
  | cons aggregation aggregations induction =>
      cases operands with
      | nil => exact failsOnly_ok ()
      | cons operand operands =>
          exact (aggregation.check_fails operand).bind fun _ => induction operands

end Grouping

end StreamQuery
