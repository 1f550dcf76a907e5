import StreamQuery.Plan.Feature
import StreamQuery.Proofs.Plan.Correspondence
import StreamQuery.Proofs.Stream.Composition
namespace StreamQuery

/-! A function is compiled after its operands have been counted, and finds in their values whatever
it reads. -/

/-- The value is what a function makes of the values of the operands, whatever the settings are, and
of the instant at which they are there. A function that missed an operand would fail with an arity
error, but it has cast errors only. -/
def Mapper.Applies (mapper : Mapper) (operands : List Mapper) : Prop :=
  ∃ function : Context → Nat → List Value → Except QueryError Value,
    (∀ context change, function (Context.withSettings context change) = function context) ∧
      ∀ context, mapper context = ((Mapper.all operands context).andThen fun values =>
          .reading fun now => function context now values) ∧
        ∀ (now : Nat) (values : List Value), values.length = operands.length →
          FailsAsCast (function context now values)

inductive Mapper.Computes (operands : List Mapper) : Mapper → Prop
  | apply {function : List Value → Except QueryError Value} :
      (∀ values : List Value, values.length = operands.length → FailsAsCast (function values)) →
      Computes operands (.apply function operands)
  | applyNow {function : Int64 → List Value → Except QueryError Value} :
      (∀ time values, FailsAsCast (function time values)) →
      Computes operands (.applyNow function operands)

namespace Mapper

variable {mapper : Mapper} {operands : List Mapper}

theorem computes_constant (value : Value) : Computes [] (constant value) :=
  @Computes.apply [] (fun _ => .ok value) fun _ _ => failsOnly_ok value

theorem Computes.applies (computes : Computes operands mapper) : mapper.Applies operands := by
  cases computes with
  | @apply function fails =>
      refine ⟨fun _ _ => function, fun _ _ => rfl, fun context => ⟨?_, fun _ => fails⟩⟩
      exact (Evaluation.andThen_ofExcept _ _).symm
  | @applyNow function fails =>
      exact ⟨fun context now => function (context.wallClock.reading now), fun _ _ => rfl,
        fun context => ⟨rfl, fun _ values _ => fails _ values⟩⟩

theorem Computes.respects (computes : Computes operands mapper) {relation : Likeness}
    (respects : ∀ operand ∈ operands, operand.Respects relation) : mapper.Respects relation := by
  cases computes with
  | apply fails => exact apply_respects respects fails
  | applyNow fails => exact applyNow_respects respects fails

end Mapper

namespace Node

variable {expr : Expr} {node : Node} {parts : List Compiled}

theorem ensures_check (arity : Arity) (expr : Expr) (given : Nat) :
    Ensures (arity.check expr given) fun _ => arity.accepts given := by
  simp only [Arity.check]
  split
  · next accepted => exact ensures_ok accepted
  · exact ensures_error _

theorem ensures_operands (found : node.operands? = some parts) (arity : Arity) (expr : Expr) :
    Ensures (node.operands arity expr) fun operands =>
      arity.accepts operands.length ∧ values parts = .ok operands := by
  simp only [operands, found]
  refine (ensures_check arity expr parts.length).bind fun _ accepted operands compiles => ?_
  rw [ensures_mapM_length operands compiles]
  exact ⟨accepted, compiles⟩

end Node

namespace ValueFeature

variable {metadata : Metadata} {expr : Expr} {node : Node} {parts : List Compiled}

theorem ensures_compileSlot (calls : List Call) :
    Ensures (compileSlot calls expr node) fun mapper =>
      ∃ position, ∀ context, mapper context = .ok (context.aggregates.getD position .null) := by
  simp only [compileSlot]
  split
  · split
    · exact ensures_ok ⟨_, fun _ => rfl⟩
    · exact ensures_error _
  · exact ensures_error _

/-- On a call or an operator, a feature other than a slot is a function of all its operands, or
makes no use of them. -/
theorem compile_computes (found : node.operands? = some parts) (feature : ValueFeature)
    (noSlot : ∀ calls, feature ≠ .slots calls) :
    Ensures (feature.compile metadata expr node) fun mapper => ∃ operands,
      (operands = [] ∨ Node.values parts = .ok operands) ∧ Mapper.Computes operands mapper := by
  have counted := fun arity => Node.ensures_operands found arity expr
  have zone := ensures_true (metadata.zones.chosen metadata.settings)
  cases feature with
  | property | subselect | caseWhen | cast =>
      cases node <;> first | exact ensures_error _ | cases found
  | scalar function =>
      refine (counted function.arity).bind fun operands counted => ensures_ok ?_
      refine ⟨operands, .inr counted.2, Mapper.Computes.apply fun values length => ?_⟩
      exact ScalarFunction.result_fails (length ▸ counted.1) _
  | newRecord =>
      simp only [compile, compileNewRecord, found]
      split
      · refine (ensures_self (Node.values parts)).bind fun operands compiles => ensures_ok ?_
        exact ⟨operands, .inr compiles, Mapper.Computes.apply fun _ _ => failsOnly_ok _⟩
      · exact ensures_error _
  | now =>
      refine zone.bind fun zone _ => (counted _).bind fun operands counted => ensures_ok ?_
      refine ⟨operands, .inr counted.2, Mapper.Computes.applyNow fun time values => ?_⟩
      exact Value.formatNow_fails zone time values.head?
  | formatDate =>
      refine zone.bind fun zone _ => (counted _).bind fun operands counted => ensures_ok ?_
      refine ⟨operands, .inr counted.2, Mapper.Computes.apply fun values length => ?_⟩
      have accepted := counted.1
      rw [← length] at accepted
      rcases values with _ | ⟨value, _ | ⟨pattern, rest⟩⟩
      · cases accepted
      · cases accepted
      · exact Value.formatDate_fails metadata.zones zone value pattern rest.head?
  | slots calls => exact absurd rfl (noSlot calls)
  | constant value => exact ensures_ok ⟨[], .inl rfl, Mapper.computes_constant value⟩
  | constantFunction arity value =>
      refine (counted arity).bind fun operands counted => ensures_ok ?_
      exact ⟨operands, .inr counted.2, Mapper.Computes.apply fun _ _ => failsOnly_ok value⟩

theorem compile_applies (found : node.operands? = some parts) (feature : ValueFeature) :
    Ensures (feature.compile metadata expr node) fun mapper =>
      ∃ operands, (operands = [] ∨ Node.values parts = .ok operands) ∧ mapper.Applies operands := by
  by_cases slot : ∃ calls, feature = .slots calls
  · rcases slot with ⟨calls, rfl⟩
    refine (ensures_compileSlot calls).imp fun mapper ⟨position, reads⟩ => ?_
    exact ⟨[], .inl rfl, fun context _ _ => .ok (context.aggregates.getD position .null),
      fun _ _ => rfl, fun context => ⟨reads context, fun _ _ _ => failsOnly_ok _⟩⟩
  · have noSlot : ∀ calls, feature ≠ .slots calls := fun calls same => slot ⟨calls, same⟩
    refine (compile_computes found feature noSlot).imp fun mapper ⟨operands, source, computes⟩ => ?_
    exact ⟨operands, source, computes.applies⟩

end ValueFeature

end StreamQuery
