import StreamQuery.Feature.Basic
import StreamQuery.Function.Date
import StreamQuery.Proofs.Results
namespace StreamQuery

/-! Functions are undefined for some operands, and then the error says what the operand could not be
cast to. They have no other failures. -/

def QueryError.isCast : QueryError → Bool
  | .cast .. => true
  | _ => false

theorem QueryError.isFatal_of_isCast {error : QueryError} (cast : error.isCast) :
    error.isFatal = false := by
  cases error <;> first | rfl | cases cast

abbrev FailsAsCast (result : Except QueryError α) : Prop :=
  FailsOnly (·.isCast) result

namespace Value

theorem castTo_fails (value : Value) (target : DataType) : FailsAsCast (value.castTo target) := by
  simp only [castTo]
  split
  · exact failsOnly_ok _
  · exact failsOnly_error rfl

/-! Numbers. -/

theorem requireNumber_fails (value : Value) : FailsAsCast value.requireNumber := by
  simp only [requireNumber]
  split
  · exact failsOnly_ok _
  · exact failsOnly_error rfl

theorem arithmetic_fails (operation : Number.Operation) (left right : Value) :
    FailsAsCast (arithmetic operation left right) := by
  simp only [arithmetic]
  split
  · exact failsOnly_ok _
  · exact left.requireNumber_fails.bind fun _ => right.requireNumber_fails.bind fun _ =>
      failsOnly_ok _

theorem extremeOperand_fails (wanted : Ordering) (best : Option Value) (operands : List Value) :
    FailsAsCast (extremeOperand wanted best operands) := by
  induction operands generalizing best with
  | nil => exact failsOnly_ok best
  | cons operand operands induction =>
      simp only [extremeOperand]
      split
      · exact induction best
      · exact operand.requireNumber_fails.bind fun _ => induction _

theorem extreme_fails (wanted : Ordering) (operands : List Value) :
    FailsAsCast (extreme wanted operands) :=
  (extremeOperand_fails wanted none operands).bind fun _ => failsOnly_ok _

theorem mapNumber_fails (transform : Number → Value) (value : Value) :
    FailsAsCast (value.mapNumber transform) := by
  simp only [mapNumber]
  split
  · exact failsOnly_ok _
  · exact value.requireNumber_fails.map transform

theorem power_fails (base exponent : Value) : FailsAsCast (base.power exponent) := by
  simp only [power]
  split
  · exact failsOnly_ok _
  · exact base.requireNumber_fails.bind fun _ => exponent.requireNumber_fails.bind fun _ =>
      failsOnly_ok _

theorem withSign_fails (sign : Sign) (value : Value) : FailsAsCast (value.withSign sign) := by
  simp only [withSign]
  split
  · exact failsOnly_ok _
  · exact failsOnly_ok _
  · exact failsOnly_ok _
  · exact value.requireNumber_fails.map _
  · split
    · exact failsOnly_ok _
    · exact value.requireNumber_fails.map _
  · exact failsOnly_ok _
  · refine value.requireNumber_fails.bind fun number => ?_
    split
    · exact failsOnly_error rfl
    · split
      · exact failsOnly_ok _
      · exact failsOnly_error rfl

/-! Bits. -/

theorem requireBits_fails (value : Value) : FailsAsCast value.requireBits := by
  simp only [requireBits]
  split
  · exact failsOnly_ok _
  · exact failsOnly_error rfl

theorem bitwise_fails (operation : BitOperation) (left right : Value) :
    FailsAsCast (bitwise operation left right) := by
  simp only [bitwise]
  split
  · exact failsOnly_ok _
  · exact left.requireBits_fails.bind fun _ => right.requireBits_fails.bind fun _ => failsOnly_ok _

theorem mapBits_fails (transform : Int64 → Int64) (value : Value) :
    FailsAsCast (value.mapBits transform) := by
  simp only [mapBits]
  split
  · exact failsOnly_ok _
  · exact value.requireBits_fails.map _

/-! Texts and dates. -/

theorem requirePosition_fails (value : Value) : FailsAsCast value.requirePosition := by
  simp only [requirePosition]
  split
  · exact failsOnly_ok _
  · exact failsOnly_error rfl

theorem substring_fails (value start : Value) (length : Option Value) :
    FailsAsCast (value.substring start length) := by
  simp only [substring]
  split
  · exact failsOnly_ok _
  · refine start.requirePosition_fails.bind fun _ => ?_
    cases length with
    | none => exact failsOnly_ok _
    | some length => exact length.requirePosition_fails.bind fun _ => failsOnly_ok _

theorem requireInstant_fails (value : Value) : FailsAsCast value.requireInstant := by
  simp only [requireInstant]
  split
  · exact failsOnly_ok _
  · exact failsOnly_error rfl

theorem formatInstant_fails (zone : Zone) (millis : Int64) (pattern : Value) :
    FailsAsCast (formatInstant zone millis pattern) := by
  simp only [formatInstant]
  split
  · exact failsOnly_ok _
  · exact failsOnly_error rfl

end Value

namespace Zones

variable (zones : Zones)

theorem find_fails (name : String) : FailsAsCast (zones.find name) := by
  simp only [find]
  split
  · exact failsOnly_ok _
  · exact failsOnly_error rfl

theorem ofOperand_fails (fallback : Zone) (operand : Option Value) :
    FailsAsCast (zones.ofOperand fallback operand) := by
  simp only [ofOperand]
  split
  · exact failsOnly_ok _
  · exact failsOnly_ok _
  · exact zones.find_fails _

end Zones

namespace Value

theorem formatDate_fails (zones : Zones) (fallback : Zone) (value pattern : Value)
    (zone : Option Value) : FailsAsCast (formatDate zones fallback value pattern zone) := by
  simp only [formatDate]
  split
  · exact failsOnly_ok _
  · refine (zones.ofOperand_fails fallback zone).bind fun _ => ?_
    exact value.requireInstant_fails.bind fun _ => formatInstant_fails _ _ pattern

theorem formatNow_fails (zone : Zone) (now : Int64) (pattern : Option Value) :
    FailsAsCast (formatNow zone now pattern) := by
  simp only [formatNow]
  split
  · exact failsOnly_ok _
  · exact failsOnly_ok _
  · exact formatInstant_fails zone now _

end Value

theorem CastFeature.apply_fails (feature : CastFeature) (value : Value) :
    FailsAsCast (feature.apply value) := by
  cases feature with
  | type target => exact value.castTo_fails target
  | constant value => exact failsOnly_ok value

/-! Operands in a number that the function accepts are all that it reads: it has a result for them,
and takes none from a place where there is no operand. -/

namespace ScalarFunction

theorem result?_isSome {function : ScalarFunction} {operands : List Value}
    (accepted : function.arity.accepts operands.length) : (function.result? operands).isSome := by
  -- No function of a fixed number of operands takes more than three.
  rcases operands with _ | ⟨first, _ | ⟨second, _ | ⟨third, _ | ⟨fourth, rest⟩⟩⟩⟩ <;>
    cases function <;>
    first
    | rfl
    | (simp only [arity, Arity.accepts, List.length_cons, List.length_nil, Bool.and_eq_true,
        decide_eq_true_eq, beq_iff_eq] at accepted
       omega)

theorem result?_fails (function : ScalarFunction) (operands : List Value) :
    ∀ result ∈ function.result? operands, FailsAsCast result := by
  intro result found
  simp only [result?] at found
  split at found <;> cases found
  all_goals first
    | exact failsOnly_ok _
    | exact Value.arithmetic_fails _ _ _
    | exact Value.extreme_fails _ _
    | exact Value.mapNumber_fails _ _
    | exact Value.power_fails _ _
    | exact Value.bitwise_fails _ _ _
    | exact Value.mapBits_fails _ _
    | exact Value.substring_fails _ _ _

theorem result_fails {function : ScalarFunction} {operands : List Value}
    (accepted : function.arity.accepts operands.length) (otherwise : Except QueryError Value) :
    FailsAsCast ((function.result? operands).getD otherwise) := by
  rcases Option.isSome_iff_exists.mp (result?_isSome accepted) with ⟨result, found⟩
  rw [found]
  exact function.result?_fails operands result found

end ScalarFunction

end StreamQuery
